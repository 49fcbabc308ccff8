import ModMirror.Proofs.NormalForm
import ModMirror.Proofs.Fetchable

/-!
# Sanitized paths stay below their root

`sanitize` refuses a text from the other side as a traversal exactly when,
with backslashes read as `/`, it starts at a root (a separator or a drive
letter and colon), holds a NUL, or has some leading run of pieces that climbs
(`..`) more often than it names entries (`Traverses`); the last is a
Dyck-style count over the pieces (`resolveInside_eq_none_iff`). Otherwise it
refuses the text as empty exactly when the names and the climbs balance out
(`Balanced`). What it accepts is plain names joined by `/`.

Joined to a root and stripped from it again, an accepted path comes back as it
was (`stripBase_join_plain`, gathered with the refusals in
`sanitize_stays_below`), for every root that normalizes to itself,
with two exceptions: the bare network root `//`, which `stripBase` strips as
if it were `/`, leaving a leading `/`; and the empty root, to which a path
whose first name starts with a drive letter and colon (`./C:x` is accepted as
`C:x`) is joined as a drive path.
-/

namespace ModMirror.Path

open Text

/-! ## Counting names and climbs -/

/-- A piece that names an entry: neither empty nor `.` nor `..`. -/
def isName (seg : List Char) : Bool := !(seg.isEmpty || seg == ['.'] || seg == ['.', '.'])

def isUp (seg : List Char) : Bool := seg == ['.', '.']

/-- Some leading run of the pieces climbs more often than it names entries. -/
def ClimbsOut (segs : List (List Char)) : Prop :=
  ∃ k, (segs.take k).countP isName < (segs.take k).countP isUp

/-- A text that starts at a root: a separator, or an ASCII letter and a colon. -/
def Rooted (cs : List Char) : Prop :=
  cs.head? = some '/' ∨ ∃ x rest, cs = x :: ':' :: rest ∧ x.isAlpha = true

theorem isName_of_dot {s : List Char} (h : s = [] ∨ s = ['.']) : isName s = false := by
  rcases h with rfl | rfl <;> rfl

theorem isUp_of_dot {s : List Char} (h : s = [] ∨ s = ['.']) : isUp s = false := by
  rcases h with rfl | rfl <;> rfl

theorem isName_isUp_of_name {s : List Char} (hdot : ¬(s = [] ∨ s = ['.'])) (hup : ¬s = ['.', '.']) :
    isName s = true ∧ isUp s = false := by
  push Not at hdot
  refine ⟨?_, by simpa [isUp] using hup⟩
  simp [isName, hdot.1, hdot.2, hup]

theorem climbs_of_resolveInside_none : ∀ {acc ss : List (List Char)}, resolveInside acc ss = none →
    ∃ k, acc.length + (ss.take k).countP isName < (ss.take k).countP isUp
  | acc, [], h => by simp [resolveInside] at h
  | acc, s :: ss, h => by
    unfold resolveInside at h
    split_ifs at h with hdot hup
    · -- an empty or `.` piece neither names nor climbs: the same run, one piece longer
      obtain ⟨k, hk⟩ := climbs_of_resolveInside_none h
      refine ⟨k + 1, ?_⟩
      simpa [isName_of_dot hdot, isUp_of_dot hdot] using hk
    · subst hup
      cases acc with
      | nil => exact ⟨1, by simp [isName, isUp]⟩
      | cons a acc' =>
        obtain ⟨k, hk⟩ := climbs_of_resolveInside_none h
        refine ⟨k + 1, ?_⟩
        simp [isName, isUp]
        omega
    · obtain ⟨hn, hu⟩ := isName_isUp_of_name hdot hup
      obtain ⟨k, hk⟩ := climbs_of_resolveInside_none h
      refine ⟨k + 1, ?_⟩
      simp only [List.take_succ_cons, List.countP_cons, hn, hu, List.length_cons] at hk ⊢
      simp
      omega

theorem no_climb_of_resolveInside_some : ∀ {acc ss r : List (List Char)}, resolveInside acc ss = some r →
    ∀ k, (ss.take k).countP isUp ≤ acc.length + (ss.take k).countP isName
  | acc, [], r, _, k => by simp
  | acc, s :: ss, r, h, 0 => by simp
  | acc, s :: ss, r, h, k + 1 => by
    unfold resolveInside at h
    split_ifs at h with hdot hup
    · simpa [isName_of_dot hdot, isUp_of_dot hdot] using no_climb_of_resolveInside_some h k
    · subst hup
      cases acc with
      | nil => cases h
      | cons a acc' =>
        have hk := no_climb_of_resolveInside_some h k
        simp [isName, isUp]
        omega
    · obtain ⟨hn, hu⟩ := isName_isUp_of_name hdot hup
      have hk := no_climb_of_resolveInside_some h k
      simp only [List.take_succ_cons, List.countP_cons, hn, hu, List.length_cons] at hk ⊢
      simp
      omega

/-- Dot resolution inside the root fails exactly when some leading run of pieces climbs
above the entries held so far. -/
theorem resolveInside_eq_none_iff (acc ss : List (List Char)) :
    resolveInside acc ss = none ↔ ∃ k, acc.length + (ss.take k).countP isName < (ss.take k).countP isUp := by
  refine ⟨climbs_of_resolveInside_none, fun ⟨k, hk⟩ => ?_⟩
  cases h : resolveInside acc ss with
  | none => rfl
  | some r => exact absurd (no_climb_of_resolveInside_some h k) (by omega)

theorem length_of_resolveInside : ∀ {acc ss r : List (List Char)}, resolveInside acc ss = some r →
    r.length + ss.countP isUp = acc.length + ss.countP isName
  | acc, [], r, h => by
    simp only [resolveInside, Option.some.injEq] at h
    simp [h]
  | acc, s :: ss, r, h => by
    unfold resolveInside at h
    split_ifs at h with hdot hup
    · simp [isName_of_dot hdot, isUp_of_dot hdot, length_of_resolveInside h]
    · subst hup
      cases acc with
      | nil => cases h
      | cons a acc' =>
        have := length_of_resolveInside h
        simp [isName, isUp]
        omega
    · obtain ⟨hn, hu⟩ := isName_isUp_of_name hdot hup
      have := length_of_resolveInside h
      simp only [List.countP_cons, hn, hu, List.length_cons] at this ⊢
      simp
      omega

theorem climbsOut_iff (segs : List (List Char)) : ClimbsOut segs ↔ resolveInside [] segs = none := by
  simp [ClimbsOut, resolveInside_eq_none_iff]

/-! ## What the sanitizer refuses -/

theorem splitRoot_unrooted {cs : List Char} (h : ¬ Rooted cs) : splitRoot cs = (.none, cs) :=
  splitRoot_of_head (fun hh => h (.inl hh)) fun x rest he => by
    simpa using fun hx => h (.inr ⟨x, rest, he, hx⟩)

theorem splitRoot_rooted {cs : List Char} (h : Rooted cs) : (splitRoot cs).1 ≠ .none := by
  rcases h with hh | ⟨x, rest, rfl, hx⟩
  · obtain ⟨r, rfl⟩ : ∃ r, cs = '/' :: r := by
      cases cs with
      | nil => simp at hh
      | cons c r => exact ⟨r, by simpa using hh⟩
    exact splitRoot_slash_ne_none r
  · simp [splitRoot_drive hx]

theorem nul_mem_unifySlashes_iff (cs : List Char) : '\x00' ∈ unifySlashes cs ↔ '\x00' ∈ cs := by
  simp only [unifySlashes, List.mem_map]
  constructor
  · rintro ⟨c, hc, he⟩
    have : c = '\x00' := by
      unfold slashOf at he
      split at he <;> simp_all
    exact this ▸ hc
  · intro h
    exact ⟨'\x00', h, rfl⟩

/-- The pieces of a text from the other side, with backslashes read as `/`. -/
def pieces (s : String) : List (List Char) := (unifySlashes s.toList).splitOn '/'

/-- A text that reaches out of wherever it is put: it starts at a root, holds a NUL, or
climbs out. -/
def Traverses (s : String) : Prop :=
  Rooted (unifySlashes s.toList) ∨ '\x00' ∈ s.toList ∨ ClimbsOut (pieces s)

/-- A text whose names and climbs cancel out. -/
def Balanced (s : String) : Prop := (pieces s).countP isName = (pieces s).countP isUp

variable (s : String)

theorem sanitize_of_rooted (hr : Rooted (unifySlashes s.toList)) : Path.sanitize s = .error (.pathTraversal s) := by
  have hroot := splitRoot_rooted hr
  unfold Path.sanitize
  dsimp only
  rcases hsr : splitRoot (unifySlashes s.toList) with ⟨root, rest⟩
  rw [hsr] at hroot
  simp [hroot]

theorem sanitize_eq_traversal_iff : Path.sanitize s = .error (.pathTraversal s) ↔ Traverses s := by
  unfold Traverses pieces
  by_cases hr : Rooted (unifySlashes s.toList)
  · simp [sanitize_of_rooted s hr, hr]
  unfold Path.sanitize
  simp only [splitRoot_unrooted hr, ne_eq, not_true_eq_false, false_or, nul_mem_unifySlashes_iff, hr]
  split_ifs with hn
  · simp [hn]
  · rw [climbsOut_iff]
    split <;> simp_all

/-- A path is refused as empty exactly when it is not a traversal and its names and climbs
balance out. -/
theorem sanitize_eq_empty_iff :
    Path.sanitize s = .error (.invalidPath s "path is empty") ↔ ¬ Traverses s ∧ Balanced s := by
  unfold Traverses Balanced pieces
  by_cases hr : Rooted (unifySlashes s.toList)
  · simp [sanitize_of_rooted s hr, hr]
  unfold Path.sanitize
  simp only [splitRoot_unrooted hr, ne_eq, not_true_eq_false, false_or, nul_mem_unifySlashes_iff, hr]
  split_ifs with hn
  · simp [hn]
  · rw [climbsOut_iff]
    split
    · rename_i hnone
      simp [hnone]
    · rename_i hres
      have := length_of_resolveInside hres
      simp_all
    · rename_i segs hne hres
      -- some name is left over, so the names outnumber the climbs
      have := length_of_resolveInside hres
      have hpos : 0 < segs.length := List.length_pos_iff.mpr hne
      simp only [hres, reduceCtorEq, false_iff]
      simp at this
      omega

theorem sanitize_cases : Path.sanitize s = .error (.pathTraversal s) ∨
    Path.sanitize s = .error (.invalidPath s "path is empty") ∨ ∃ c, Path.sanitize s = .ok c := by
  unfold Path.sanitize
  dsimp only
  rcases splitRoot (unifySlashes s.toList) with ⟨root, rest⟩
  split_ifs
  · simp
  · split <;> simp

theorem sanitize_ok_iff : (∃ c, Path.sanitize s = .ok c) ↔ ¬ Traverses s ∧ ¬ Balanced s := by
  constructor
  · rintro ⟨c, hc⟩
    have hnt : ¬ Traverses s := fun h => by
      simpa [hc] using (sanitize_eq_traversal_iff s).mpr h
    exact ⟨hnt, fun he => by simpa [hc] using (sanitize_eq_empty_iff s).mpr ⟨hnt, he⟩⟩
  · rintro ⟨hnt, hne⟩
    rcases sanitize_cases s with h | h | h
    · exact absurd ((sanitize_eq_traversal_iff s).mp h) hnt
    · exact absurd ((sanitize_eq_empty_iff s).mp h).2 hne
    · exact h

theorem plainSegs_of_sanitize {c : String} (h : Path.sanitize s = .ok c) : PlainSegs c.toList := by
  obtain ⟨hne, hplain, hkey⟩ := sanitize_segments h
  rw [← hkey, keyOf_toList]
  exact plainSegs_joinWith (by simpa using hne) (by simpa [PlainName] using hplain)

/-! ## Joining an accepted path below a root -/

theorem render_append (root : Root) (a b : List Char) : root.render (a ++ b) = root.render a ++ b := by
  cases root <;> rfl

theorem bareDrive_render {root : Root} (hroot : root ≠ .none) (body : List Char) :
    bareDrive (root.render body) = false := by
  rw [Bool.eq_false_iff]
  intro h
  obtain ⟨x, rest, he, hx, hrest⟩ := bareDrive_eq_true_iff.mp h
  cases root with
  | none => exact hroot rfl
  | slash =>
    simp only [Root.render, List.cons.injEq] at he
    simp [← he.1] at hx
  | share =>
    simp only [Root.render, List.cons.injEq] at he
    simp [← he.1] at hx
  | drive y =>
    simp only [Root.render, List.cons.injEq] at he
    exact hrest (by rw [← he.2.2]; rfl)

theorem bareDrive_append_slash {t : List Char} (hne : t ≠ []) (h : bareDrive t = false) (c : List Char) :
    bareDrive (t ++ '/' :: c) = false := by
  rw [Bool.eq_false_iff] at h ⊢
  intro h'
  obtain ⟨x, rest, he, hx, hr⟩ := bareDrive_eq_true_iff.mp h'
  apply h
  rw [bareDrive_eq_true_iff]
  cases t with
  | nil => exact absurd rfl hne
  | cons x' t' =>
    cases t' with
    | nil => simp at he
    | cons y r =>
      simp only [List.cons_append, List.cons.injEq] at he
      obtain ⟨rfl, rfl, rfl⟩ := he
      refine ⟨x', r, rfl, hx, ?_⟩
      cases r with
      | nil => simp at hr
      | cons z zs => simpa using hr

theorem getLast?_render (root : Root) {body : List Char} (hb : body ≠ []) :
    (root.render body).getLast? = body.getLast? := by
  rw [← List.nil_append body, render_append, List.nil_append, List.getLast?_append_of_ne_nil _ hb]

/-- Joined to a root of the normal shape that is no bare drive and not the bare network root,
and stripped from it again, plain names come back as they were; on the empty root they must
not start with a drive. -/
theorem stripBase_join_plain {root : NormalPath} {c : String} (hshape : NormalShape root.text.toList)
    (hfix : bareDrive root.text.toList = false) (hshare : root.text ≠ "//") (hc : PlainSegs c.toList)
    (hempty : root.text = "" → ¬ Rooted c.toList) : (root.join c).stripBase root = some c := by
  obtain ⟨rt, body, hr, hb, hn⟩ := hshape
  have hseg : unifySlashes c.toList = c.toList := unifySlashes_of_no_backslash hc.not_mem_backslash
  have hcshape : NormalShape c.toList := ⟨.none, c.toList, rfl, .inr hc, rfl⟩
  unfold NormalPath.join NormalPath.stripBase
  simp only [hseg, String.toList_ofList]
  split_ifs with hempty' hslash
  · -- the empty root: the path alone, which must not read as a drive
    have hroot : root.text = "" := String.toList_eq_nil_iff.mp hempty'
    have hbare : bareDrive c.toList = false := by
      rw [Bool.eq_false_iff]
      intro h
      obtain ⟨x, rest, he, hx, -⟩ := bareDrive_eq_true_iff.mp h
      exact hempty hroot (.inr ⟨x, rest, he, hx⟩)
    rw [clean_of_normalShape hcshape hbare]
    simp [NormalPath.relativeTo, hempty', String.ofList_toList]
  · -- a root ending in a separator is a root with no body: the path goes right after it
    have hbody : body = [] := by
      by_contra hne
      have hlast := getLast?_render rt hne
      rw [← hn, hslash] at hlast
      exact (hb.resolve_left hne).getLast?_ne_slash hlast.symm
    subst hbody
    have hrt : rt ≠ .none := by
      rintro rfl
      exact hempty' hn
    have hjoined : root.text.toList ++ c.toList = rt.render c.toList := by
      rw [hn, ← render_append, List.nil_append]
    rw [hjoined, clean_of_normalShape ⟨rt, c.toList, hr, .inr hc, rfl⟩ (bareDrive_render hrt _), hn]
    cases rt with
    | none => exact absurd rfl hrt
    | slash => simp [Root.render, NormalPath.relativeTo, trimEnd, stripPrefix?, String.ofList_toList]
    | share =>
      exact absurd (String.toList_injective (by rw [hn]; rfl)) hshare
    | drive x => simp [Root.render, NormalPath.relativeTo, trimEnd, stripPrefix?, String.ofList_toList]
  · -- otherwise a separator goes between the root's last name and the path
    have hbody : body ≠ [] := by
      rintro rfl
      cases rt with
      | none => exact hempty' hn
      | slash => exact hslash (by rw [hn]; rfl)
      | share => exact hslash (by rw [hn]; rfl)
      | drive x => exact hslash (by rw [hn]; rfl)
    have hsegs : PlainSegs body := hb.resolve_left hbody
    have hjoined : root.text.toList ++ '/' :: c.toList = rt.render (body ++ '/' :: c.toList) := by
      rw [hn, render_append]
    have hbare : bareDrive (rt.render (body ++ '/' :: c.toList)) = false := by
      by_cases hrt : rt = .none
      · subst hrt
        rw [hn] at hfix
        exact bareDrive_append_slash hbody hfix _
      · exact bareDrive_render hrt _
    have htrim : trimEnd '/' root.text.toList = root.text.toList := trimEnd_of_getLast hslash
    rw [hjoined, clean_of_normalShape ⟨rt, _, hr, .inr (plainSegs_append_slash.mpr ⟨hsegs, hc⟩), rfl⟩ hbare,
      ← hjoined]
    have hstrip : stripPrefix? ['/'] ('/' :: c.toList) = some c.toList := stripPrefix?_append ['/'] _
    simp [NormalPath.relativeTo, hempty', htrim, hstrip]

/-- The sanitizer refuses exactly the texts that traverse, and the balanced rest as empty; it
accepts the others, as plain names that every root which normalizes to itself, other than the
bare network root, gets back when it strips itself from them after the join. -/
theorem sanitize_stays_below (s : String) :
    (Path.sanitize s = .error (.pathTraversal s) ↔ Traverses s) ∧
    (Path.sanitize s = .error (.invalidPath s "path is empty") ↔ ¬ Traverses s ∧ Balanced s) ∧
    ((∃ c, Path.sanitize s = .ok c) ↔ ¬ Traverses s ∧ ¬ Balanced s) ∧
    ∀ c, Path.sanitize s = .ok c →
      c ≠ "" ∧ (∀ seg ∈ c.toList.splitOn '/', seg ≠ [] ∧ seg ≠ ['.'] ∧ seg ≠ ['.', '.']) ∧
      ∀ root : NormalPath, NormalPath.ofString root.text = root → root.text ≠ "//" →
        (root.text = "" → ¬ Rooted c.toList) → (root.join c).stripBase root = some c := by
  refine ⟨sanitize_eq_traversal_iff s, sanitize_eq_empty_iff s, sanitize_ok_iff s, fun c hc => ?_⟩
  have hplain := plainSegs_of_sanitize s hc
  refine ⟨?_, fun seg hseg => ?_, fun root hfix hshare hempty => ?_⟩
  · rintro rfl
    exact plainSegs_nil hplain
  · obtain ⟨h1, h2, h3, -⟩ := hplain seg hseg
    exact ⟨h1, h2, h3⟩
  · -- a root that normalizes to itself has the normal shape and is no bare drive
    have htext : root.text.toList = clean root.text.toList := by
      have h : (NormalPath.ofString root.text).text.toList = clean root.text.toList := String.toList_ofList
      rwa [hfix] at h
    have hbare := (NormalPath.ofString_idem_iff root.text).mp (by rw [hfix, hfix])
    rw [hfix] at hbare
    exact stripBase_join_plain (htext ▸ normalShape_clean _) hbare hshare hplain hempty

theorem sanitize_stays_below_srv :
    Path.sanitize "BepInEx/./plugins/../config/x.cfg" = .ok "BepInEx/config/x.cfg" ∧
      ((NormalPath.ofString "/srv").join "BepInEx/config/x.cfg").stripBase (NormalPath.ofString "/srv") =
        some "BepInEx/config/x.cfg" := by
  have hs : Path.sanitize "BepInEx/./plugins/../config/x.cfg" = .ok "BepInEx/config/x.cfg" := by decide
  exact ⟨hs, ((sanitize_stays_below _).2.2.2 _ hs).2.2 (NormalPath.ofString "/srv") (by decide) (by decide)
    (fun h => absurd h (by decide))⟩

end ModMirror.Path
