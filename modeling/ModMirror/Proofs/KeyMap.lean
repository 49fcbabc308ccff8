import Mathlib
import ModMirror.Data.KeyMap

/-!
# Key maps: lookups and the order invariant

A key map is kept in strictly increasing key order, so no key occurs twice.
Insertion keeps that order, and a lookup after an insertion sees the new
value at its key and the old lookup everywhere else. In an ordered map a
lookup finds a value exactly when the pair is stored.

    find? k (insert k' v m) = if k = k' then some v else find? k m   (find?_insert)
    Sorted m → (find? k m = some v ↔ (k, v) ∈ m)                      (find?_eq_some_iff)
-/

namespace ModMirror.KeyMap

variable {α : Type}

def Sorted (m : KeyMap α) : Prop := m.Pairwise fun a b => a.1 < b.1

/-! ## Lookups -/

theorem find?_insert (k k' : String) (v : α) (m : KeyMap α) :
    find? k (insert k' v m) = if k = k' then some v else find? k m := by
  induction m with
  | nil => simp [insert, find?]
  | cons p rest ih =>
    obtain ⟨j, w⟩ := p
    by_cases hlt : k' < j
    · simp [insert, find?, hlt]
    · by_cases heq : k' = j
      · subst heq
        by_cases hk : k = k' <;> simp [insert, find?, hk]
      · by_cases hk : k = j
        · subst hk
          simp [insert, find?, hlt, heq, Ne.symm heq]
        · simp [insert, find?, hlt, heq, hk, ih]

theorem mem_of_find?_eq_some {k : String} {v : α} {m : KeyMap α} (h : find? k m = some v) :
    (k, v) ∈ m := by
  induction m with
  | nil => simp [find?] at h
  | cons p rest ih =>
    obtain ⟨j, w⟩ := p
    by_cases hk : k = j
    · subst hk
      simp only [find?, if_pos, Option.some.injEq] at h
      simp [h]
    · simp only [find?, if_neg hk] at h
      exact List.mem_cons_of_mem _ (ih h)

theorem isSome_find?_iff {k : String} {m : KeyMap α} : (find? k m).isSome ↔ ∃ v, (k, v) ∈ m := by
  induction m with
  | nil => simp [find?]
  | cons p rest ih =>
    obtain ⟨j, w⟩ := p
    by_cases hk : k = j
    · subst hk
      simp [find?]
    · simp [find?, hk, ih]

/-- In an ordered map a lookup finds exactly the stored value of its key. -/
theorem find?_eq_some_iff {k : String} {v : α} {m : KeyMap α} (hs : Sorted m) :
    find? k m = some v ↔ (k, v) ∈ m := by
  refine ⟨mem_of_find?_eq_some, fun hmem => ?_⟩
  induction m with
  | nil => simp at hmem
  | cons p rest ih =>
    obtain ⟨j, w⟩ := p
    obtain ⟨hhead, htail⟩ := List.pairwise_cons.mp hs
    rcases List.mem_cons.mp hmem with hkv | hkv
    · obtain ⟨rfl, rfl⟩ := Prod.mk.inj hkv
      simp [find?]
    · -- a later key is strictly larger than the head key, so the head is skipped
      have hk : k ≠ j := (String.ne_of_lt (hhead _ hkv)).symm
      simp only [find?, if_neg hk]
      exact ih htail hkv

/-! ## The order invariant -/

theorem mem_insert {k : String} {v : α} {m : KeyMap α} {e : String × α} (h : e ∈ insert k v m) :
    e = (k, v) ∨ e ∈ m := by
  induction m with
  | nil => simpa [insert] using h
  | cons p rest ih =>
    obtain ⟨j, w⟩ := p
    unfold insert at h
    split_ifs at h with hlt heq
    · simpa using h
    · rcases List.mem_cons.mp h with h | h
      · exact .inl h
      · exact .inr (List.mem_cons_of_mem _ h)
    · rcases List.mem_cons.mp h with h | h
      · exact .inr (by simp [h])
      · rcases ih h with h | h
        · exact .inl h
        · exact .inr (List.mem_cons_of_mem _ h)

theorem find?_eq_none_of_lt {k : String} {m : KeyMap α} (h : ∀ e ∈ m, k < e.1) : find? k m = none := by
  cases hf : find? k m with
  | none => rfl
  | some v => exact absurd (h _ (mem_of_find?_eq_some hf)) (String.lt_irrefl k)

theorem sorted_insert (k : String) (v : α) {m : KeyMap α} (hs : Sorted m) : Sorted (insert k v m) := by
  induction m with
  | nil => simp [Sorted, insert]
  | cons p rest ih =>
    obtain ⟨j, w⟩ := p
    obtain ⟨hhead, htail⟩ := List.pairwise_cons.mp hs
    unfold insert
    split_ifs with hlt heq
    · -- the new key goes first: it is below `j`, hence below every later key
      refine List.pairwise_cons.mpr ⟨?_, hs⟩
      intro e he
      rcases List.mem_cons.mp he with rfl | he
      · exact hlt
      · exact String.lt_trans hlt (hhead e he)
    · subst heq
      exact List.pairwise_cons.mpr ⟨hhead, htail⟩
    · -- the new key goes after `j`, which is below it and below the rest
      have hjk : j < k := lt_of_le_of_ne (not_lt.mp hlt) (Ne.symm heq)
      refine List.pairwise_cons.mpr ⟨?_, ih htail⟩
      intro e he
      rcases mem_insert he with rfl | he
      · exact hjk
      · exact hhead e he

theorem Sorted.filter {m : KeyMap α} (hs : Sorted m) (p : String × α → Bool) : Sorted (m.filter p) :=
  List.Pairwise.filter p hs

theorem Sorted.nodup_keys {m : KeyMap α} (hs : Sorted m) : (m.map Prod.fst).Nodup :=
  List.pairwise_map.mpr (hs.imp String.ne_of_lt)

/-! ## Removal and filtering -/

theorem erase_sublist (k : String) : ∀ m : KeyMap α, (erase k m).Sublist m
  | [] => List.Sublist.slnil
  | (j, w) :: rest => by
    unfold erase
    split_ifs
    · exact List.sublist_cons_self _ _
    · exact (erase_sublist k rest).cons_cons _

theorem Sorted.erase {m : KeyMap α} (hs : Sorted m) (k : String) : Sorted (erase k m) :=
  hs.sublist (erase_sublist k m)

theorem find?_erase {m : KeyMap α} (hs : Sorted m) (k k' : String) :
    find? k (erase k' m) = if k = k' then none else find? k m := by
  induction m with
  | nil => simp [erase, find?]
  | cons p rest ih =>
    obtain ⟨j, w⟩ := p
    obtain ⟨hhead, htail⟩ := List.pairwise_cons.mp hs
    by_cases hj : k' = j
    · subst hj
      -- the removed head was the only entry of its key
      by_cases hk : k = k'
      · subst hk
        simp [erase, find?_eq_none_of_lt fun e he => hhead e he]
      · simp [erase, find?, hk]
    · by_cases hk : k = j
      · subst hk
        have hne : k ≠ k' := fun h => hj h.symm
        simp [erase, find?, hj, hne]
      · simp [erase, find?, hj, hk, ih htail]

/-- In an ordered map, a lookup in a filtered map finds the stored value when
it passes the filter. -/
theorem find?_filter {m : KeyMap α} (hs : Sorted m) (p : String × α → Bool) (k : String) :
    find? k (m.filter p) = (find? k m).filter fun v => p (k, v) := by
  induction m with
  | nil => simp [find?]
  | cons e rest ih =>
    obtain ⟨j, w⟩ := e
    obtain ⟨hhead, htail⟩ := List.pairwise_cons.mp hs
    by_cases hk : k = j
    · subst hk
      -- the rest holds larger keys only, and so does its filtered part
      have hnone : find? k (rest.filter p) = none :=
        find?_eq_none_of_lt fun e he => hhead e (List.mem_of_mem_filter he)
      by_cases hp : p (k, w) = true <;> simp [find?, hp, hnone, Option.filter]
    · by_cases hp : p (j, w) = true <;> simp [find?, hp, hk, ih htail]

/-! ## Extensionality -/

theorem Sorted.nodup {m : KeyMap α} (hs : Sorted m) : m.Nodup := List.Nodup.of_map Prod.fst hs.nodup_keys

/-- Two ordered maps holding the same pairs are equal: a permutation of a
strictly ordered list is the list itself. -/
theorem Sorted.eq_of_perm {m m' : KeyMap α} (hs : Sorted m) (hs' : Sorted m') (h : m.Perm m') : m = m' :=
  h.eq_of_pairwise (fun _ _ _ _ hab hba => absurd (String.lt_trans hab hba) (String.lt_irrefl _)) hs hs'

theorem eq_of_find?_eq {m m' : KeyMap α} (hs : Sorted m) (hs' : Sorted m')
    (h : ∀ k, find? k m = find? k m') : m = m' := by
  have hmem : ∀ e, e ∈ m ↔ e ∈ m' := by
    rintro ⟨k, v⟩
    rw [← find?_eq_some_iff hs, ← find?_eq_some_iff hs', h]
  exact hs.eq_of_perm hs' ((List.perm_ext_iff_of_nodup hs.nodup hs'.nodup).mpr hmem)

/-! ## Collecting pairs -/

/-- Inserting pairs one after the other leaves each key with the value of the
last pair under it. -/
theorem find?_foldl_insert (l : List (String × α)) (m : KeyMap α) (k : String) :
    find? k (l.foldl (fun m e => insert e.1 e.2 m) m) =
      (((l.filter fun e => e.1 = k).getLast?).map Prod.snd).or (find? k m) := by
  induction l generalizing m with
  | nil => simp
  | cons x l ih =>
    rw [List.foldl_cons, ih, find?_insert]
    by_cases hk : k = x.1
    · have hk' : x.1 = k := hk.symm
      simp only [List.filter_cons, hk', decide_true, if_true, List.getLast?_cons]
      cases (l.filter fun e => e.1 = k).getLast? <;> rfl
    · have hk' : ¬ x.1 = k := fun h => hk h.symm
      simp only [if_neg hk, List.filter_cons, hk', decide_false, Bool.false_eq_true, if_false]

theorem sorted_foldl_insert (l : List (String × α)) {m : KeyMap α} (hs : Sorted m) :
    Sorted (l.foldl (fun m e => insert e.1 e.2 m) m) := by
  induction l generalizing m with
  | nil => exact hs
  | cons x l ih => exact ih (sorted_insert x.1 x.2 hs)

theorem sorted_collect (l : List (String × α)) : Sorted (collect l) :=
  sorted_foldl_insert l List.Pairwise.nil

theorem find?_collect (l : List (String × α)) (k : String) :
    find? k (collect l) = ((l.filter fun e => e.1 = k).getLast?).map Prod.snd := by
  rw [collect, find?_foldl_insert]
  simp [find?]

theorem filter_eq_singleton_of_nodup {β γ : Type} [DecidableEq γ] (f : β → γ) :
    ∀ {l : List β}, (l.map f).Nodup → ∀ {x : β}, x ∈ l → l.filter (fun e => f e = f x) = [x]
  | [], _, _, hx => by cases hx
  | y :: rest, hnd, x, hx => by
    simp only [List.map_cons, List.nodup_cons, List.mem_map, not_exists, not_and] at hnd
    obtain ⟨hy, hrest⟩ := hnd
    rcases List.mem_cons.mp hx with rfl | hx
    · -- nothing after the head has its image
      have hnone : rest.filter (fun e => f e = f x) = [] :=
        List.filter_eq_nil_iff.mpr fun e he h => hy e he (of_decide_eq_true h)
      simp [hnone]
    · have hne : f y ≠ f x := fun h => hy x hx h.symm
      simp [hne, filter_eq_singleton_of_nodup f hrest hx]

theorem mem_collect_iff {l : List (String × α)} (hl : (l.map Prod.fst).Nodup) {e : String × α} :
    e ∈ collect l ↔ e ∈ l := by
  obtain ⟨k, v⟩ := e
  rw [← find?_eq_some_iff (sorted_collect l), find?_collect]
  constructor
  · intro h
    obtain ⟨y, hy, rfl⟩ := Option.map_eq_some_iff.mp h
    have hmem := List.mem_of_getLast? hy
    have hk : y.1 = k := of_decide_eq_true (List.mem_filter.mp hmem).2
    rw [← hk]
    exact (List.mem_filter.mp hmem).1
  · intro h
    have hfilter := filter_eq_singleton_of_nodup Prod.fst hl h
    simp only at hfilter
    rw [hfilter]
    rfl

theorem collect_perm {l : List (String × α)} (hl : (l.map Prod.fst).Nodup) : (collect l).Perm l :=
  (List.perm_ext_iff_of_nodup (sorted_collect l).nodup (List.Nodup.of_map Prod.fst hl)).mpr
    fun _ => mem_collect_iff hl

theorem collect_eq_of_perm {l m : KeyMap α} (hm : Sorted m) (hp : l.Perm m) : collect l = m :=
  have hl : (l.map Prod.fst).Nodup := (hp.map Prod.fst).nodup_iff.mpr hm.nodup_keys
  (sorted_collect l).eq_of_perm hm ((collect_perm hl).trans hp)

/-! ## The first key from a bound

Texts that start with a prefix `p` form one interval of the key order, and it
starts at `p` itself: a text between `p` and a text that extends `p` extends
`p` too. So in an ordered map the first key at or after `p` tells whether any
key extends `p`.
-/

/-- A list between `p` and an extension of `p`, in the order of characters,
extends `p`. -/
theorem prefix_of_not_lex {p k q : List Char} (hpk : ¬ List.Lex (· < ·) k p)
    (hkq : ¬ List.Lex (· < ·) q k) (hq : p <+: q) : p <+: k := by
  induction p generalizing k q with
  | nil => exact List.nil_prefix
  | cons c p ih =>
    obtain ⟨q, rfl⟩ : ∃ q', q = c :: q' := by
      cases q with
      | nil => exact absurd hq (by simp)
      | cons d q => exact ⟨q, (List.cons_prefix_cons.mp hq).1 ▸ rfl⟩
    cases k with
    | nil => exact absurd List.Lex.nil hpk
    | cons d k =>
      -- neither head is below the other, so they agree and the tails are compared
      have hdc : d = c := le_antisymm (not_lt.mp fun h => hkq (List.Lex.rel h))
        (not_lt.mp fun h => hpk (List.Lex.rel h))
      subst hdc
      have htail := ih (fun h => hpk (List.Lex.cons h)) (fun h => hkq (List.Lex.cons h))
        (List.cons_prefix_cons.mp hq).2
      exact List.cons_prefix_cons.mpr ⟨rfl, htail⟩

theorem prefix_of_between {p k q : String} (hpk : p ≤ k) (hkq : k ≤ q) (hq : p.toList <+: q.toList) :
    p.toList <+: k.toList := by
  have hpk' : ¬ List.Lex (· < ·) k.toList p.toList := fun h => hpk (String.lt_iff_toList_lt.mpr h)
  have hkq' : ¬ List.Lex (· < ·) q.toList k.toList := fun h => hkq (String.lt_iff_toList_lt.mpr h)
  exact prefix_of_not_lex hpk' hkq' hq

theorem not_lex_append (l r : List Char) : ¬ List.Lex (· < ·) (l ++ r) l := by
  induction l with
  | nil => intro h; cases h
  | cons c cs ih =>
    intro h
    cases h with
    | rel h => exact lt_irrefl c h
    | cons h => exact ih h

theorem le_of_prefix {p q : String} (h : p.toList <+: q.toList) : p ≤ q := by
  intro hlt
  obtain ⟨r, hr⟩ := h
  have hlex : List.Lex (· < ·) q.toList p.toList := String.lt_iff_toList_lt.mp hlt
  rw [← hr] at hlex
  exact not_lex_append _ _ hlex

theorem firstFrom?_mem {k : String} {m : KeyMap α} {e : String × α} (h : firstFrom? k m = some e) :
    e ∈ m := by
  induction m with
  | nil => cases h
  | cons p rest ih =>
    obtain ⟨j, w⟩ := p
    unfold firstFrom? at h
    split_ifs at h
    · cases h
      exact List.mem_cons_self ..
    · exact List.mem_cons_of_mem _ (ih h)

theorem le_of_firstFrom? {k : String} {m : KeyMap α} {e : String × α} (h : firstFrom? k m = some e) :
    k ≤ e.1 := by
  induction m with
  | nil => cases h
  | cons p rest ih =>
    obtain ⟨j, w⟩ := p
    unfold firstFrom? at h
    split_ifs at h with hle
    · cases h
      exact hle
    · exact ih h

theorem firstFrom?_eq_none {k : String} {m : KeyMap α} (h : firstFrom? k m = none) :
    ∀ e ∈ m, ¬ k ≤ e.1 := by
  induction m with
  | nil => simp
  | cons p rest ih =>
    obtain ⟨j, w⟩ := p
    unfold firstFrom? at h
    split_ifs at h with hle
    intro e he
    rcases List.mem_cons.mp he with rfl | he
    · exact hle
    · exact ih h e he

theorem Sorted.firstFrom?_le {k : String} {m : KeyMap α} (hs : Sorted m) {e : String × α}
    (h : firstFrom? k m = some e) : ∀ e' ∈ m, k ≤ e'.1 → e.1 ≤ e'.1 := by
  induction m with
  | nil => cases h
  | cons p rest ih =>
    obtain ⟨j, w⟩ := p
    obtain ⟨hhead, htail⟩ := List.pairwise_cons.mp hs
    unfold firstFrom? at h
    intro e' he' hk
    split_ifs at h with hle
    · -- the head is found, and every later key is above it
      cases h
      rcases List.mem_cons.mp he' with rfl | he'
      · exact le_refl _
      · exact le_of_lt (hhead e' he')
    · rcases List.mem_cons.mp he' with rfl | he'
      · exact absurd hk hle
      · exact ih htail h e' he' hk

/-- In an ordered map, some key extends `p` exactly when the first key at or
after `p` does. -/
theorem Sorted.firstFrom?_prefix_iff {m : KeyMap α} (hs : Sorted m) (p : String) :
    ((firstFrom? p m).any fun e => p.toList.isPrefixOf e.1.toList) = true ↔
      ∃ e ∈ m, p.toList <+: e.1.toList := by
  rw [Option.any_eq_true]
  constructor
  · rintro ⟨e, he, hpre⟩
    exact ⟨e, firstFrom?_mem he, List.isPrefixOf_iff_prefix.mp hpre⟩
  · rintro ⟨e, he, hpre⟩
    have hpe : p ≤ e.1 := le_of_prefix hpre
    cases hf : firstFrom? p m with
    | none => exact absurd hpe (firstFrom?_eq_none hf e he)
    | some f =>
      -- the first key lies between `p` and the key extending it
      have hbetween := prefix_of_between (le_of_firstFrom? hf) (hs.firstFrom?_le hf e he hpe) hpre
      exact ⟨f, rfl, List.isPrefixOf_iff_prefix.mpr hbetween⟩

/-- An insertion never hides a key extending `p` from the first key at or
after `p`, whatever the order of the map. -/
theorem firstFrom?_insert_prefix (p k : String) (v : α) {m : KeyMap α}
    (h : ∃ e, firstFrom? p m = some e ∧ p.toList <+: e.1.toList) :
    ∃ e, firstFrom? p (insert k v m) = some e ∧ p.toList <+: e.1.toList := by
  induction m with
  | nil => simp [firstFrom?] at h
  | cons q rest ih =>
    obtain ⟨j, w⟩ := q
    obtain ⟨e, hf, hpre⟩ := h
    unfold firstFrom? at hf
    unfold insert
    split_ifs at hf with hpj
    · -- the head `j` extends `p`; a new key in front of it lies between the two
      cases hf
      split_ifs with hkj hkeq
      · by_cases hpk : p ≤ k
        · exact ⟨(k, v), by simp [firstFrom?, hpk],
            prefix_of_between hpk (le_of_lt hkj) hpre⟩
        · exact ⟨(j, w), by simp [firstFrom?, hpk, hpj], hpre⟩
      · subst hkeq
        exact ⟨(k, v), by simp [firstFrom?, hpj], hpre⟩
      · exact ⟨(j, w), by simp [firstFrom?, hpj], hpre⟩
    · -- the head is below `p`, and so is a new key in front of it
      split_ifs with hkj hkeq
      · have hpk : ¬ p ≤ k := fun hle => hpj (le_of_lt (lt_of_le_of_lt hle hkj))
        exact ⟨e, by simp [firstFrom?, hpk, hpj, hf], hpre⟩
      · subst hkeq
        exact ⟨e, by simp [firstFrom?, hpj, hf], hpre⟩
      · obtain ⟨e', hf', hpre'⟩ := ih ⟨e, hf, hpre⟩
        exact ⟨e', by simp [firstFrom?, hpj, hf'], hpre'⟩

end ModMirror.KeyMap
