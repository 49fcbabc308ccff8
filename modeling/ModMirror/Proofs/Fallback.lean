import Mathlib
import ModMirror.Server.Fallback

/-!
# Fallback resolution

Version precedence is a lawful total order: each part of a version, and each
identifier of its tags, compares through a key of plain values, and the parts
compare one after the other (`Version.cmp_eq`). So the payload list of a
registry stays in strictly increasing version order under every
registration, holding for each registered precedence the payload registered
last (`Tracks`), and resolving a header reads the greatest registered
version not above the client's off the end of that list:

    Registered b r hist → r.resolve none = .ok (lastLegacy hist)
    Registered b r hist → parse (versionText h) = .ok v → v < b →
      r.resolve (some h) = .ok (latestUnder hist g)   g the greatest registered version ≤ v
-/

namespace ModMirror

open Std

/-! ## Version precedence is a total order -/

theorem transCmp_comap {α β : Type} (cmp : β → β → Ordering) [TransCmp cmp] (f : α → β) :
    TransCmp (fun a b => cmp (f a) (f b)) where
  eq_swap := OrientedCmp.eq_swap
  isLE_trans := TransCmp.isLE_trans

namespace Version

theorem compareIdents_eq (cmp : String → String → Ordering) : compareIdents cmp = List.compareLex cmp := by
  funext as bs
  induction as generalizing bs with
  | nil => cases bs <;> rfl
  | cons a as ih =>
    cases bs with
    | nil => rfl
    | cons b bs =>
      rw [List.compareLex_cons_cons, ← ih]
      simp only [compareIdents]
      cases cmp a b <;> rfl

/-- A pre-release identifier compares by its class (numeric ones first), then
numeric ones by length, then by text. -/
theorem compareIdent_eq : compareIdent = compareLex (compareOn fun a => !numeric a)
    (compareLex (compareOn fun a => if numeric a then a.length else 0) compare) := by
  funext a b
  simp only [compareIdent, compareLex, compareOn]
  cases numeric a <;> cases numeric b <;> rfl

/-- A build identifier compares by its class (numeric ones first), then numeric
ones by the length and text of their value (leading zeros dropped) and then by
length, other ones by text. -/
theorem compareBuildIdent_eq : compareBuildIdent = compareLex (compareOn fun a => !numeric a)
    (compareLex (compareOn fun a => if numeric a then (String.ofList (a.toList.dropWhile (· = '0'))).length else 0)
      (compareLex (compareOn fun a => if numeric a then String.ofList (a.toList.dropWhile (· = '0')) else "")
        (compareLex (compareOn fun a => if numeric a then a.length else 0)
          (compareOn fun a => if numeric a then "" else a)))) := by
  funext a b
  simp only [compareBuildIdent, compareLex, compareOn]
  -- identifiers of different classes are told apart by the class alone
  cases numeric a <;> cases numeric b
  · simp
  · rfl
  · rfl
  · simp [Ordering.then_assoc]

/-- A pre-release tag compares by whether it is absent (absent is greatest),
then by its identifiers. -/
theorem comparePre_eq : comparePre = compareLex (compareOn fun a => decide (a = ""))
    (fun a b => List.compareLex compareIdent (a.splitOn ".") (b.splitOn ".")) := by
  funext a b
  unfold comparePre
  by_cases ha : a = "" <;> by_cases hb : b = ""
  · subst ha hb
    have : TransCmp compareIdent := by rw [compareIdent_eq]; infer_instance
    simp [compareLex, compareOn, ReflCmp.compare_self]
  · have hgt : compare true false = Ordering.gt := rfl
    simp [ha, hb, compareLex, compareOn, hgt, Ordering.then]
  · have hlt : compare false true = Ordering.lt := rfl
    simp [ha, hb, compareLex, compareOn, hlt, Ordering.then]
  · simp [ha, hb, compareLex, compareOn, compareIdents_eq]

instance : TransCmp compareIdent := by
  rw [compareIdent_eq]
  infer_instance

instance : TransCmp compareBuildIdent := by
  rw [compareBuildIdent_eq]
  infer_instance

instance : TransCmp comparePre := by
  rw [comparePre_eq]
  have := transCmp_comap (List.compareLex compareIdent) fun a : String => a.splitOn "."
  infer_instance

/-- Versions compare by their numbers, then by pre-release tag, then by build
identifiers. -/
theorem cmp_eq : Version.cmp = compareLex (compareOn Version.major) (compareLex (compareOn Version.minor)
    (compareLex (compareOn Version.patch) (compareLex (fun v w => comparePre v.pre w.pre)
      (fun v w => List.compareLex compareBuildIdent (v.build.splitOn ".") (w.build.splitOn "."))))) := by
  funext v w
  simp [Version.cmp, compareLex, compareOn, compareIdents_eq]

instance : TransCmp Version.cmp := by
  rw [cmp_eq]
  have := transCmp_comap comparePre Version.pre
  have := transCmp_comap (List.compareLex compareBuildIdent) fun v : Version => v.build.splitOn "."
  infer_instance

end Version

/-! ## The payload list stays ordered -/

namespace FallbackRegistry

def Ordered (l : List (Version × FallbackPayload)) : Prop :=
  l.Pairwise fun a b => Version.cmp a.1 b.1 = .lt

theorem cmp_ne_eq_of_lt {v w : Version} (h : Version.cmp v w = .lt) : Version.cmp w v ≠ .eq := by
  rw [OrientedCmp.gt_iff_lt.mpr h]
  simp

theorem Ordered.lt_of_lt_head {v w : Version} {q : FallbackPayload} {rest : List (Version × FallbackPayload)}
    (hs : Ordered ((w, q) :: rest)) (hc : Version.cmp v w = .lt) :
    ∀ x ∈ (w, q) :: rest, Version.cmp v x.1 = .lt := by
  intro x hx
  rcases List.mem_cons.mp hx with rfl | hx
  · exact hc
  · exact TransCmp.lt_trans hc ((List.pairwise_cons.mp hs).1 x hx)

theorem mem_insertVersion {v : Version} {p : FallbackPayload} :
    ∀ {l : List (Version × FallbackPayload)} {e}, e ∈ insertVersion v p l → e = (v, p) ∨ e ∈ l
  | [], e, h => by simpa [insertVersion] using h
  | (w, q) :: rest, e, h => by
    unfold insertVersion at h
    cases hc : Version.cmp v w <;> simp only [hc] at h
    · exact (List.mem_cons.mp h).imp_right id
    · exact (List.mem_cons.mp h).imp_right (List.mem_cons_of_mem _)
    · rcases List.mem_cons.mp h with rfl | h
      · exact .inr (List.mem_cons_self ..)
      · exact (mem_insertVersion h).imp_right (List.mem_cons_of_mem _)

theorem ordered_insertVersion (v : Version) (p : FallbackPayload) :
    ∀ {l : List (Version × FallbackPayload)}, Ordered l → Ordered (insertVersion v p l)
  | [], _ => List.pairwise_singleton _ _
  | (w, q) :: rest, hs => by
    obtain ⟨hhead, htail⟩ := List.pairwise_cons.mp hs
    unfold insertVersion
    cases hc : Version.cmp v w
    · -- the new version goes first: below `w`, hence below every later version
      exact List.pairwise_cons.mpr ⟨hs.lt_of_lt_head hc, hs⟩
    · -- the new version replaces `w`, of its precedence
      exact List.pairwise_cons.mpr ⟨fun e he => TransCmp.lt_of_eq_of_lt hc (hhead e he), htail⟩
    · -- the new version goes after `w`
      refine List.pairwise_cons.mpr ⟨fun e he => ?_, ordered_insertVersion v p htail⟩
      rcases mem_insertVersion he with rfl | he
      · exact OrientedCmp.gt_iff_lt.mp hc
      · exact hhead e he

/-- In an ordered list, inserting replaces the payload of the versions of the
new version's precedence and keeps every other one. -/
theorem mem_insertVersion_iff {v : Version} {p : FallbackPayload} :
    ∀ {l : List (Version × FallbackPayload)}, Ordered l → ∀ {e},
      e ∈ insertVersion v p l ↔ e = (v, p) ∨ (e ∈ l ∧ Version.cmp e.1 v ≠ .eq)
  | [], _, e => by simp [insertVersion]
  | (w, q) :: rest, hs, e => by
    obtain ⟨hhead, htail⟩ := List.pairwise_cons.mp hs
    unfold insertVersion
    cases hc : Version.cmp v w
    · -- every kept version is above the new one
      have habove := hs.lt_of_lt_head hc
      constructor
      · intro he
        rcases List.mem_cons.mp he with rfl | he
        · exact .inl rfl
        · exact .inr ⟨he, cmp_ne_eq_of_lt (habove e he)⟩
      · rintro (rfl | ⟨he, -⟩)
        · exact List.mem_cons_self ..
        · exact List.mem_cons_of_mem _ he
    · -- `w` is dropped, and the rest lies above the new version
      constructor
      · intro he
        rcases List.mem_cons.mp he with rfl | he
        · exact .inl rfl
        · exact .inr ⟨List.mem_cons_of_mem _ he,
            cmp_ne_eq_of_lt (TransCmp.lt_of_eq_of_lt hc (hhead e he))⟩
      · rintro (rfl | ⟨he, hne⟩)
        · exact List.mem_cons_self ..
        · rcases List.mem_cons.mp he with rfl | he
          · exact absurd (OrientedCmp.eq_comm.mp hc) hne
          · exact List.mem_cons_of_mem _ he
    · have hwv : Version.cmp w v = .lt := OrientedCmp.gt_iff_lt.mp hc
      rw [List.mem_cons, mem_insertVersion_iff htail, List.mem_cons]
      constructor
      · rintro (rfl | rfl | ⟨he, hne⟩)
        · exact .inr ⟨.inl rfl, fun h => by simp [hwv] at h⟩
        · exact .inl rfl
        · exact .inr ⟨.inr he, hne⟩
      · rintro (rfl | ⟨rfl | he, hne⟩)
        · exact .inr (.inl rfl)
        · exact .inl rfl
        · exact .inr (.inr ⟨he, hne⟩)

/-! ## What a registry holds after a history of registrations -/

/-- The versions of the payloads registered, in order. -/
def registeredVersions (hist : List FallbackPayload) : List Version := hist.filterMap (·.version)

def lastLegacy (hist : List FallbackPayload) : Option FallbackPayload :=
  (hist.filter (·.version.isNone)).getLast?

/-- The payload registered last under a version of the precedence of `w`. -/
def latestUnder (hist : List FallbackPayload) (w : Version) : Option FallbackPayload :=
  (hist.filter fun p => p.version.any fun u => Version.cmp u w == .eq).getLast?

theorem registeredVersions_snoc (hist : List FallbackPayload) (p : FallbackPayload) :
    registeredVersions (hist ++ [p]) = registeredVersions hist ++ p.version.toList := by
  cases hv : p.version <;> simp [registeredVersions, hv]

theorem lastLegacy_snoc (hist : List FallbackPayload) (p : FallbackPayload) :
    lastLegacy (hist ++ [p]) = if p.version.isNone then some p else lastLegacy hist := by
  by_cases hv : p.version.isNone <;> simp [lastLegacy, hv]

theorem latestUnder_snoc (hist : List FallbackPayload) (p : FallbackPayload) (w : Version) :
    latestUnder (hist ++ [p]) w =
      if p.version.any (fun u => Version.cmp u w == .eq) then some p else latestUnder hist w := by
  by_cases hv : p.version.any (fun u => Version.cmp u w == .eq) <;> simp [latestUnder, hv]

/-- What a registry holds after the payloads `hist` were registered: the
legacy payload registered last, and the versions in strictly increasing
order, one per registered precedence, each with the payload registered last
under it. -/
structure Tracks (r : FallbackRegistry) (hist : List FallbackPayload) : Prop where
  legacy : r.legacy = lastLegacy hist
  ordered : Ordered r.versions
  latest : ∀ e ∈ r.versions, latestUnder hist e.1 = some e.2
  registered : ∀ e ∈ r.versions, e.1 ∈ registeredVersions hist
  complete : ∀ w ∈ registeredVersions hist, ∃ e ∈ r.versions, Version.cmp w e.1 = .eq

theorem tracks_new (b : Version) : Tracks { baseline := b } [] :=
  ⟨rfl, List.Pairwise.nil, by simp, by simp, by simp [registeredVersions]⟩

theorem Tracks.register_legacy {r : FallbackRegistry} {hist : List FallbackPayload} (ht : Tracks r hist)
    {p : FallbackPayload} (hv : p.version = none) : Tracks (r.register p) (hist ++ [p]) := by
  have hreg : registeredVersions (hist ++ [p]) = registeredVersions hist := by
    simp [registeredVersions_snoc, hv]
  have hlatest : ∀ w, latestUnder (hist ++ [p]) w = latestUnder hist w := by
    intro w
    simp [latestUnder_snoc, hv]
  simp only [register, hv]
  refine ⟨by simp [lastLegacy_snoc, hv], ht.ordered, fun e he => ?_, fun e he => ?_, fun w hw => ?_⟩
  · rw [hlatest]
    exact ht.latest e he
  · rw [hreg]
    exact ht.registered e he
  · rw [hreg] at hw
    exact ht.complete w hw

theorem Tracks.register_version {r : FallbackRegistry} {hist : List FallbackPayload} (ht : Tracks r hist)
    {p : FallbackPayload} {v : Version} (hv : p.version = some v) : Tracks (r.register p) (hist ++ [p]) := by
  have hreg : registeredVersions (hist ++ [p]) = registeredVersions hist ++ [v] := by
    simp [registeredVersions_snoc, hv]
  have hmem := fun e => mem_insertVersion_iff (v := v) (p := p) ht.ordered (e := e)
  simp only [register, hv]
  refine ⟨by simp [lastLegacy_snoc, hv, ht.legacy], ordered_insertVersion v p ht.ordered,
    fun e he => ?_, fun e he => ?_, fun w hw => ?_⟩
  · rcases (hmem e).mp he with rfl | ⟨he, hne⟩
    · simp [latestUnder_snoc, hv, ReflCmp.compare_self]
    · -- the new payload is of another precedence than `e`
      have hne' : Version.cmp v e.1 ≠ .eq := fun h => hne (OrientedCmp.eq_comm.mp h)
      simp [latestUnder_snoc, hv, hne', ht.latest e he]
  · rw [hreg]
    rcases (hmem e).mp he with rfl | ⟨he, -⟩
    · simp
    · exact List.mem_append_left _ (ht.registered e he)
  · rw [hreg, List.mem_append, List.mem_singleton] at hw
    rcases hw with hw | rfl
    · obtain ⟨e, he, hwe⟩ := ht.complete w hw
      by_cases hev : Version.cmp e.1 v = .eq
      · -- `e` was replaced by the new version, of the same precedence
        exact ⟨(v, p), (hmem _).mpr (.inl rfl), TransCmp.eq_trans hwe hev⟩
      · exact ⟨e, (hmem e).mpr (.inr ⟨he, hev⟩), hwe⟩
    · exact ⟨(w, p), (hmem _).mpr (.inl rfl), ReflCmp.compare_self⟩

theorem Tracks.register {r : FallbackRegistry} {hist : List FallbackPayload} (ht : Tracks r hist)
    (p : FallbackPayload) : Tracks (r.register p) (hist ++ [p]) := by
  cases hv : p.version with
  | none => exact ht.register_legacy hv
  | some v => exact ht.register_version hv

theorem Tracks.foldl_register {r : FallbackRegistry} {hist : List FallbackPayload} (ht : Tracks r hist) :
    ∀ ps : List FallbackPayload, Tracks (ps.foldl FallbackRegistry.register r) (hist ++ ps)
  | [] => by simpa using ht
  | p :: ps => by
    have hnext := (ht.register p).foldl_register ps
    simpa using hnext

theorem baseline_register (r : FallbackRegistry) (p : FallbackPayload) : (r.register p).baseline = r.baseline := by
  unfold register
  split <;> rfl

theorem baseline_foldl_register (r : FallbackRegistry) :
    ∀ ps : List FallbackPayload, (ps.foldl register r).baseline = r.baseline
  | [] => rfl
  | p :: ps => by rw [List.foldl_cons, baseline_foldl_register, baseline_register]

/-- Registries made by `new b` or `withBuiltins b` and any registrations
after, with every payload registered since `new b`, in order. -/
inductive Registered (b : Version) : FallbackRegistry → List FallbackPayload → Prop
  | new : Registered b { baseline := b } []
  | withBuiltins : Registered b (withBuiltins b) builtinPayloads
  | register {r : FallbackRegistry} {hist : List FallbackPayload} (p : FallbackPayload) :
      Registered b r hist → Registered b (r.register p) (hist ++ [p])

theorem Registered.tracks {b : Version} {r : FallbackRegistry} {hist : List FallbackPayload}
    (hr : Registered b r hist) : Tracks r hist ∧ r.baseline = b := by
  induction hr with
  | new => exact ⟨tracks_new b, rfl⟩
  | withBuiltins =>
    have ht := (tracks_new b).foldl_register builtinPayloads
    rw [List.nil_append] at ht
    exact ⟨ht, baseline_foldl_register _ builtinPayloads⟩
  | register p _ ih => exact ⟨ih.1.register p, (baseline_register _ p).trans ih.2⟩

/-! ## Resolving a version -/

/-- In an ordered list, the last member passing a test is above every other
member passing it. -/
theorem Ordered.lt_last_of_filter {l : List (Version × FallbackPayload)} (hs : Ordered l)
    (P : Version × FallbackPayload → Bool) {g : Version × FallbackPayload}
    (hg : (l.filter P).getLast? = some g) : ∀ e ∈ l, P e = true → e = g ∨ Version.cmp e.1 g.1 = .lt := by
  intro e he hP
  obtain ⟨front, hfront⟩ := List.getLast?_eq_some_iff.mp hg
  have hf : Ordered (front ++ [g]) := hfront ▸ hs.filter P
  have hmem : e ∈ front ++ [g] := hfront ▸ List.mem_filter.mpr ⟨he, hP⟩
  rcases List.mem_append.mp hmem with h | h
  · exact .inr ((List.pairwise_append.mp hf).2.2 e h g (List.mem_singleton_self g))
  · exact .inl (List.mem_singleton.mp h)

/-- The last stored version not above `v` is the greatest registered version
not above `v`, and holds the payload registered last under it. -/
theorem Tracks.select_some {r : FallbackRegistry} {hist : List FallbackPayload} (ht : Tracks r hist)
    {v : Version} {g : Version × FallbackPayload}
    (hg : (r.versions.filter fun e => Version.cmp e.1 v != .gt).getLast? = some g) :
    g.1 ∈ registeredVersions hist ∧ Version.le g.1 v ∧
      (∀ w ∈ registeredVersions hist, Version.le w v → Version.le w g.1) ∧ latestUnder hist g.1 = some g.2 := by
  have hgmem := List.mem_filter.mp (List.mem_of_getLast? hg)
  refine ⟨ht.registered g hgmem.1, by simpa [Version.le] using hgmem.2, fun w hw hwv => ?_,
    ht.latest g hgmem.1⟩
  -- `w` has the precedence of a stored version, which passes the test too
  obtain ⟨e, he, hwe⟩ := ht.complete w hw
  have hwv' : Version.cmp w v ≠ .gt := by simpa [Version.le] using hwv
  have hev : Version.cmp e.1 v ≠ .gt := TransCmp.le_trans (by simp [OrientedCmp.eq_comm.mp hwe]) hwv'
  have hle : Version.cmp e.1 g.1 ≠ .gt := by
    rcases ht.ordered.lt_last_of_filter _ hg e he (by simpa using hev) with rfl | hlt
    · simp [ReflCmp.compare_self]
    · simp [hlt]
  simpa [Version.le] using TransCmp.le_trans (by simp [hwe]) hle

theorem Tracks.select_none {r : FallbackRegistry} {hist : List FallbackPayload} (ht : Tracks r hist)
    {v : Version} (hg : (r.versions.filter fun e => Version.cmp e.1 v != .gt).getLast? = none) :
    ∀ w ∈ registeredVersions hist, Version.le w v = false := by
  intro w hw
  obtain ⟨e, he, hwe⟩ := ht.complete w hw
  have hnone := List.filter_eq_nil_iff.mp (List.getLast?_eq_none_iff.mp hg) e he
  have hev : Version.cmp e.1 v = .gt := by simpa using hnone
  simpa [Version.le] using TransCmp.gt_of_eq_of_gt hwe hev

theorem resolve_some_of_parse (r : FallbackRegistry) {h : String} {v : Version}
    (hv : Version.parse (versionText h) = .ok v) :
    r.resolve (some h) =
      if Version.cmp v r.baseline ≠ .lt then .ok none
      else .ok (((r.versions.filter fun e => Version.cmp e.1 v != .gt).getLast?.map Prod.snd).or r.legacy) := by
  simp only [resolve, hv]
  by_cases hb : Version.cmp v r.baseline = .lt
  · simp only [hb, bne_self_eq_false, Bool.false_eq_true, if_false, ne_eq, not_true_eq_false]
    cases (r.versions.filter fun e => Version.cmp e.1 v != .gt).getLast? <;> rfl
  · simp [hb]

/-- Fallback resolution, for every registry made by `new b` or `withBuiltins b`
and registrations after, every header: no header gets the legacy payload
registered last; a header whose text (trimmed, one leading `v` dropped) is no
version is refused as an invalid version, and no other header is; a version
at or above the baseline gets live data; an older version gets the payload
registered last under the greatest registered version not above it, or the
legacy payload when no registered version is. -/
theorem Registered.resolve_spec {b : Version} {r : FallbackRegistry} {hist : List FallbackPayload}
    (hr : Registered b r hist) (h : String) :
    r.resolve none = .ok (lastLegacy hist) ∧
    ((∃ reason, r.resolve (some h) = .error (.invalidVersion h reason)) ↔
      ∀ v, Version.parse (versionText h) ≠ .ok v) ∧
    (∀ v, Version.parse (versionText h) = .ok v → Version.cmp v b ≠ .lt → r.resolve (some h) = .ok none) ∧
    (∀ v, Version.parse (versionText h) = .ok v → Version.cmp v b = .lt →
      (∃ g ∈ registeredVersions hist, Version.le g v ∧
        (∀ w ∈ registeredVersions hist, Version.le w v → Version.le w g) ∧
        ∃ p, latestUnder hist g = some p ∧ r.resolve (some h) = .ok (some p)) ∨
      ((∀ w ∈ registeredVersions hist, Version.le w v = false) ∧
        r.resolve (some h) = .ok (lastLegacy hist))) := by
  obtain ⟨ht, rfl⟩ := hr.tracks
  refine ⟨by simp [resolve, ht.legacy], ⟨?_, ?_⟩, ?_, ?_⟩
  · rintro ⟨reason, hres⟩ v hv
    rw [resolve_some_of_parse r hv] at hres
    split at hres <;> cases hres
  · intro hnot
    cases hp : Version.parse (versionText h) with
    | error e => exact ⟨e.message, by simp [resolve, hp]⟩
    | ok v => exact absurd hp (hnot v)
  · intro v hv hge
    rw [resolve_some_of_parse r hv, if_pos hge]
  · intro v hv hlt
    rw [resolve_some_of_parse r hv, if_neg (not_not.mpr hlt)]
    cases hsel : (r.versions.filter fun e => Version.cmp e.1 v != .gt).getLast? with
    | none => exact .inr ⟨ht.select_none hsel, by simp [ht.legacy]⟩
    | some g =>
      obtain ⟨hreg, hle, hmax, hlatest⟩ := ht.select_some hsel
      exact .inl ⟨g.1, hreg, hle, hmax, g.2, hlatest, rfl⟩

-- a padded header with a leading `v` is read as 0.8.7 and gets the built-in 0.8.2 payload
example : (((withBuiltins { major := 0, minor := 9, patch := 0 }).resolve (some " v0.8.7 ")).toOption.map
    fun p => p.map (·.version)) = some (some (some { major := 0, minor := 8, patch := 2 })) := by decide

/-- An operator's payload for clients at 0.8.2, empty bodies. -/
def operatorPayload : FallbackPayload :=
  { version := some { major := 0, minor := 8, patch := 2 }, syncPaths := .arr [], hashes := .obj [] }

/-- The built-in payloads under the baseline 0.9.0, then the operator's payload. -/
def operatorRegistry : FallbackRegistry := (withBuiltins { major := 0, minor := 9, patch := 0 }).register operatorPayload

/-- A client at 0.8.7, below the baseline, after the operator replaced the built-in 0.8.2 payload. -/
theorem resolve_spec_operator_payload :
    Registered { major := 0, minor := 9, patch := 0 } operatorRegistry (builtinPayloads ++ [operatorPayload]) ∧
    operatorRegistry.resolve none = .ok (lastLegacy (builtinPayloads ++ [operatorPayload])) ∧
    ((∃ reason, operatorRegistry.resolve (some "0.8.7") = .error (.invalidVersion "0.8.7" reason)) ↔
      ∀ v, Version.parse (versionText "0.8.7") ≠ .ok v) ∧
    (∀ v, Version.parse (versionText "0.8.7") = .ok v → Version.cmp v { major := 0, minor := 9, patch := 0 } ≠ .lt →
      operatorRegistry.resolve (some "0.8.7") = .ok none) ∧
    (∀ v, Version.parse (versionText "0.8.7") = .ok v → Version.cmp v { major := 0, minor := 9, patch := 0 } = .lt →
      (∃ g ∈ registeredVersions (builtinPayloads ++ [operatorPayload]), Version.le g v ∧
        (∀ w ∈ registeredVersions (builtinPayloads ++ [operatorPayload]), Version.le w v → Version.le w g) ∧
        ∃ p, latestUnder (builtinPayloads ++ [operatorPayload]) g = some p ∧
          operatorRegistry.resolve (some "0.8.7") = .ok (some p)) ∨
      ((∀ w ∈ registeredVersions (builtinPayloads ++ [operatorPayload]), Version.le w v = false) ∧
        operatorRegistry.resolve (some "0.8.7") = .ok (lastLegacy (builtinPayloads ++ [operatorPayload])))) :=
  have hr : Registered { major := 0, minor := 9, patch := 0 } operatorRegistry (builtinPayloads ++ [operatorPayload]) :=
    .register operatorPayload .withBuiltins
  ⟨hr, hr.resolve_spec "0.8.7"⟩

end FallbackRegistry

end ModMirror
