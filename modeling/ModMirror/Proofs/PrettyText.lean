import Mathlib
import ModMirror.Json.Shape
import ModMirror.Json.Print
import ModMirror.Proofs.Wire

/-!
# Pretty text reads back

The state files are written as pretty JSON and read again by a shape. This
module follows the reader over the bytes of the printed text and shows that
it gives back the value that was printed:

    ReadsBack shape 128 0 j → readText shape (renderPretty j) = .ok j

`ReadsBack shape depth d j` says that the reader of `shape`, started before the
text of `j` printed at indentation `d` (after any blanks of the layout), reads
`j` and stops at the end of that text, whatever follows. It is proved shape by
shape: strings and booleans directly, sorted objects read as dictionaries,
arrays read as lists and objects read as records from their fields.

The bytes still to be read from index `i` are `bytesFrom b i`; every lemma
says where the reader stops by what is left after it, so that steps chain by
the bytes of the layout rather than by index arithmetic.
-/

namespace ModMirror.Json

open Reader

/-! ## The bytes still to read -/

/-- The bytes of `b` from index `i` on. -/
def bytesFrom (b : ByteArray) (i : Nat) : List UInt8 := b.data.toList.drop i

theorem byte?_eq_head? (b : ByteArray) (i : Nat) : byte? b i = (bytesFrom b i).head? := by
  unfold byte? bytesFrom
  split
  · rename_i h
    rw [List.head?_drop, List.getElem?_eq_getElem (by simpa using h)]
    rfl
  · rename_i h
    rw [List.head?_drop, List.getElem?_eq_none (by simpa using h)]

theorem bytesFrom_add {b : ByteArray} {i : Nat} {w r : List UInt8} (h : bytesFrom b i = w ++ r) :
    bytesFrom b (i + w.length) = r := by
  unfold bytesFrom at *
  rw [← List.drop_drop, h, List.drop_left]

theorem bytesFrom_succ {b : ByteArray} {i : Nat} {c : UInt8} {r : List UInt8} (h : bytesFrom b i = c :: r) :
    bytesFrom b (i + 1) = r :=
  bytesFrom_add (w := [c]) h

theorem byte?_of_bytesFrom {b : ByteArray} {i : Nat} {c : UInt8} {r : List UInt8} (h : bytesFrom b i = c :: r) :
    byte? b i = some c := by
  rw [byte?_eq_head?, h, List.head?_cons]

theorem lt_size_of_bytesFrom {b : ByteArray} {i : Nat} {c : UInt8} {r : List UInt8}
    (h : bytesFrom b i = c :: r) : ∃ hi : i < b.size, b[i] = c := by
  unfold bytesFrom at h
  have hi : i < b.data.toList.length := by
    by_contra hn
    rw [List.drop_eq_nil_of_le (by omega)] at h
    cases h
  rw [List.drop_eq_getElem_cons hi, List.cons.injEq] at h
  have hc := h.1
  simp only [Array.getElem_toList] at hc
  exact ⟨by simpa using hi, hc⟩

theorem get!_of_bytesFrom {b : ByteArray} {i : Nat} {c : UInt8} {r : List UInt8} (h : bytesFrom b i = c :: r) :
    b.get! i = c := by
  obtain ⟨hi, hc⟩ := lt_size_of_bytesFrom h
  unfold ByteArray.get!
  simp [hi]
  exact hc

theorem push_eq_append (acc : ByteArray) (x : UInt8) : acc.push x = acc ++ [x].toByteArray := by
  apply ByteArray.ext
  simp

/-! ## Strings -/

section Strings

variable {b : ByteArray}

theorem hex4_of_bytesFrom {i : Nat} {w x y z : UInt8} {r : List UInt8} (h : bytesFrom b i = w :: x :: y :: z :: r)
    {dw dx dy dz : Nat} (hw : hexValue? w = some dw) (hx : hexValue? x = some dx) (hy : hexValue? y = some dy)
    (hz : hexValue? z = some dz) : hex4 b i = .ok (((dw * 16 + dx) * 16 + dy) * 16 + dz, i + 4) := by
  have h1 := bytesFrom_succ h
  have h2 := bytesFrom_succ h1
  have h3 := bytesFrom_succ h2
  obtain ⟨hi, -⟩ := lt_size_of_bytesFrom h3
  unfold hex4
  rw [if_pos (by omega), get!_of_bytesFrom h, get!_of_bytesFrom h1, get!_of_bytesFrom h2, get!_of_bytesFrom h3,
    hw, hx, hy, hz]

theorem scanString_backslash {i fuel : Nat} {acc : ByteArray} {r : List UInt8} (h : bytesFrom b i = 92 :: r) :
    scanString b (fuel + 1) i acc =
      match escapeAt b (i + 1) acc with
      | .ok (acc', j) => scanString b fuel j acc'
      | .error f => .error f := by
  rw [scanString, byte?_of_bytesFrom h]
  rfl

theorem scanString_plain : ∀ (w : List UInt8) {i fuel : Nat} {acc : ByteArray} {r : List UInt8},
    (∀ x ∈ w, x ≠ 34 ∧ x ≠ 92 ∧ 32 ≤ x.toNat) → bytesFrom b i = w ++ r →
      scanString b (fuel + w.length) i acc = scanString b fuel (i + w.length) (acc ++ w.toByteArray)
  | [], i, fuel, acc, r, _, _ => by
    simp only [List.length_nil, Nat.add_zero]
    congr 1
    apply ByteArray.ext
    simp
  | x :: w, i, fuel, acc, r, hw, h => by
    obtain ⟨hq, hb, hc⟩ := hw x List.mem_cons_self
    rw [List.length_cons, ← Nat.add_assoc, scanString, byte?_of_bytesFrom h]
    have hlt : ¬x < 32 := by
      intro hlt
      have := UInt8.lt_iff_toNat_lt.mp hlt
      simp at this
      omega
    simp only [beq_iff_eq, hq, hb, hlt, if_false]
    rw [scanString_plain w (fun y hy => hw y (List.mem_cons_of_mem x hy)) (bytesFrom_succ h)]
    congr 1
    · omega
    · apply ByteArray.ext
      simp

/-- The bytes of a character that is written as it is avoid the quote, the
backslash and the control range. -/
theorem utf8EncodeChar_plain {c : Char} (hq : c ≠ '"') (hb : c ≠ '\\') (hc : 0x20 ≤ c.toNat) :
    ∀ x ∈ String.utf8EncodeChar c, x ≠ 34 ∧ x ≠ 92 ∧ 32 ≤ x.toNat := by
  have hq' : c.toNat ≠ 34 := fun h => hq (by rw [← Char.ofNat_toNat c, h])
  have hb' : c.toNat ≠ 92 := fun h => hb (by rw [← Char.ofNat_toNat c, h])
  intro x hx
  unfold String.utf8EncodeChar at hx
  dsimp only at hx
  split_ifs at hx <;> simp only [Char.toNat_val] at * <;> simp at hx <;> rcases hx with rfl | rfl | rfl | rfl <;>
    simp [← UInt8.toNat_inj, UInt8.toNat_ofNat] <;> omega

theorem utf8EncodeChar_hexDigit : ∀ n, n < 16 → String.utf8EncodeChar (hexDigit n) = [UInt8.ofNat (hexDigit n).toNat] := by
  decide

theorem hexValue?_hexDigit : ∀ n, n < 16 → hexValue? (UInt8.ofNat (hexDigit n).toNat) = some n := by
  decide

/-- The two-byte escapes: the byte after the backslash, with the byte it
stands for. -/
def namedEscapes : List (UInt8 × UInt8) :=
  [(34, 34), (92, 92), (110, 10), (114, 13), (116, 9), (98, 8), (102, 12)]

theorem escapeAt_named {e x : UInt8} {j : Nat} {acc : ByteArray} {r : List UInt8}
    (hx : (e, x) ∈ namedEscapes) (h : bytesFrom b j = e :: r) :
    escapeAt b j acc = .ok (acc.push x, j + 1) := by
  rw [escapeAt, byte?_of_bytesFrom h]
  simp only [namedEscapes, List.mem_cons, Prod.mk.injEq, List.not_mem_nil, or_false] at hx
  rcases hx with ⟨rfl, rfl⟩ | ⟨rfl, rfl⟩ | ⟨rfl, rfl⟩ | ⟨rfl, rfl⟩ | ⟨rfl, rfl⟩ | ⟨rfl, rfl⟩ | ⟨rfl, rfl⟩ <;> rfl

/-- What `escapeChar` writes: a two-byte escape by name, four hexadecimal
digits for another control character, or the character itself. -/
theorem escapeChar_cases (c : Char) :
    (∃ e x : UInt8, (e, x) ∈ namedEscapes ∧
        (escapeChar c).flatMap String.utf8EncodeChar = [92, e] ∧ String.utf8EncodeChar c = [x]) ∨
      (c.toNat < 0x20 ∧
        escapeChar c = ['\\', 'u', '0', '0', hexDigit (c.toNat / 16), hexDigit (c.toNat % 16)]) ∨
      (c ≠ '"' ∧ c ≠ '\\' ∧ 0x20 ≤ c.toNat ∧ escapeChar c = [c]) := by
  unfold escapeChar
  split_ifs with hq hb hn hr ht hbs hf hctl
  · subst hq; exact .inl ⟨34, 34, by decide, rfl, rfl⟩
  · subst hb; exact .inl ⟨92, 92, by decide, rfl, rfl⟩
  · subst hn; exact .inl ⟨110, 10, by decide, rfl, rfl⟩
  · subst hr; exact .inl ⟨114, 13, by decide, rfl, rfl⟩
  · subst ht; exact .inl ⟨116, 9, by decide, rfl, rfl⟩
  · subst hbs; exact .inl ⟨98, 8, by decide, rfl, rfl⟩
  · subst hf; exact .inl ⟨102, 12, by decide, rfl, rfl⟩
  · exact .inr (.inl ⟨hctl, rfl⟩)
  · exact .inr (.inr ⟨hq, hb, by omega, rfl⟩)

/-- Scanning the escaped form of one character gives its UTF-8 bytes, in at
most as many steps as the form has bytes. -/
theorem scanString_escapeChar (c : Char) (acc : ByteArray) {i : Nat} {r : List UInt8}
    (h : bytesFrom b i = (escapeChar c).flatMap String.utf8EncodeChar ++ r) :
    ∃ k, 0 < k ∧ k ≤ ((escapeChar c).flatMap String.utf8EncodeChar).length ∧ ∀ fuel,
      scanString b (fuel + k) i acc =
        scanString b fuel (i + ((escapeChar c).flatMap String.utf8EncodeChar).length)
          (acc ++ (String.utf8EncodeChar c).toByteArray) := by
  rcases escapeChar_cases c with ⟨e, x, hx, hbytes, hc⟩ | ⟨hctl, hesc⟩ | ⟨hq, hb, hc, hesc⟩
  · -- the escapes by name: the byte after the backslash stands for the character
    rw [hbytes] at h ⊢
    rw [hc]
    refine ⟨1, Nat.one_pos, by simp, fun _ => ?_⟩
    rw [scanString_backslash h, escapeAt_named hx (bytesFrom_succ h), push_eq_append]
    rfl
  · -- another control character: four hexadecimal digits of its code
    have hhi : c.toNat / 16 < 16 := by omega
    have hlo : c.toNat % 16 < 16 := Nat.mod_lt _ (by decide)
    have hbytes : (escapeChar c).flatMap String.utf8EncodeChar = [92, 117, 48, 48,
        UInt8.ofNat (hexDigit (c.toNat / 16)).toNat, UInt8.ofNat (hexDigit (c.toNat % 16)).toNat] := by
      simp only [hesc, List.flatMap_cons, List.flatMap_nil, utf8EncodeChar_hexDigit _ hhi,
        utf8EncodeChar_hexDigit _ hlo]
      rfl
    rw [hbytes] at h ⊢
    have hu := bytesFrom_succ h
    have hdigits := bytesFrom_succ hu
    have hcode : ((0 * 16 + 0) * 16 + c.toNat / 16) * 16 + c.toNat % 16 = c.toNat := by omega
    have he : escapeAt b (i + 1) acc = .ok (pushCode acc c.toNat, i + 2 + 4) := by
      rw [escapeAt, byte?_of_bytesFrom hu]
      simp only [unicodeEscape, hex4_of_bytesFrom hdigits (show hexValue? 48 = some 0 from rfl)
        (show hexValue? 48 = some 0 from rfl) (hexValue?_hexDigit _ hhi)
        (hexValue?_hexDigit _ hlo), hcode]
      have hsur : ¬(56320 ≤ c.toNat ∧ c.toNat ≤ 57343) := by omega
      simp [hsur, show c.toNat < 55296 by omega, bind, Except.bind, pure, Except.pure]
    refine ⟨1, Nat.one_pos, by simp, fun fuel => ?_⟩
    rw [scanString_backslash h, he, pushCode, Char.ofNat_toNat, String.toUTF8_eq_toByteArray,
      String.toByteArray_singleton]
    simp only [List.utf8Encode, List.flatMap_singleton, List.length_cons, List.length_nil]
  · -- a character written as it is
    have hplain := utf8EncodeChar_plain hq hb hc
    rw [hesc, List.flatMap_singleton] at h ⊢
    exact ⟨_, List.length_pos_iff.mpr String.utf8EncodeChar_ne_nil, le_refl _,
      fun _ => scanString_plain _ hplain h⟩

/-- Scanning the escaped form of characters and a closing quote gives the
characters' UTF-8 bytes and stops after the quote. -/
theorem scanString_escaped : ∀ (cs : List Char) {i fuel : Nat} {acc : ByteArray} {r : List UInt8},
    bytesFrom b i = (cs.flatMap escapeChar).flatMap String.utf8EncodeChar ++ 34 :: r →
    ((cs.flatMap escapeChar).flatMap String.utf8EncodeChar).length < fuel →
    scanString b fuel i acc = .ok (acc ++ (cs.flatMap String.utf8EncodeChar).toByteArray,
      i + ((cs.flatMap escapeChar).flatMap String.utf8EncodeChar).length + 1)
  | [], i, fuel, acc, r, h, hfuel => by
    obtain ⟨fuel, rfl⟩ : ∃ f, fuel = f + 1 := ⟨fuel - 1, by simp at hfuel; omega⟩
    rw [scanString, byte?_of_bytesFrom (by simpa using h)]
    simp only [beq_self_eq_true, if_true, List.flatMap_nil, List.length_nil, Nat.add_zero, Except.ok.injEq,
      Prod.mk.injEq, and_true]
    apply ByteArray.ext
    simp
  | c :: cs, i, fuel, acc, r, h, hfuel => by
    rw [List.flatMap_cons, List.flatMap_append, List.append_assoc] at h
    rw [List.flatMap_cons, List.flatMap_append, List.length_append] at hfuel
    obtain ⟨k, -, hk, hstep⟩ := scanString_escapeChar c acc h
    obtain ⟨f, rfl⟩ : ∃ f, fuel = f + k := ⟨fuel - k, by omega⟩
    rw [hstep f, scanString_escaped cs (bytesFrom_add h) (by omega)]
    simp only [List.flatMap_cons, List.flatMap_append, List.length_append, Except.ok.injEq, Prod.mk.injEq]
    constructor
    · apply ByteArray.ext
      simp
    · omega

end Strings

/-! ## Running a reader -/

section Run

variable {α β : Type} {b : ByteArray} {i j k : Nat}

/-- Reader `x` started at byte `i` of `b` gives `a` and stops at byte `j`. -/
def Reads (x : Reader α) (b : ByteArray) (i : Nat) (a : α) (j : Nat) : Prop :=
  (x.run b).run.run i = (.ok a, j)

theorem Reads.bind {x : Reader α} {f : α → Reader β} {a : α} {c : β}
    (hx : Reads x b i a j) (hf : Reads (f a) b j c k) : Reads (x >>= f) b i c k := by
  unfold Reads at *
  simp only [ReaderT.run, ExceptT.run, StateT.run] at *
  show StateT.bind (x b) (ExceptT.bindCont fun a => f a b) i = _
  simp only [StateT.bind, hx, ExceptT.bindCont]
  exact hf

theorem reads_pure (a : α) : Reads (pure a : Reader α) b i a i := rfl

theorem reads_eat : Reads eat b i () (i + 1) := rfl

theorem reads_blank : Reads blank? b i (byte? b (skipBlanks b i)) (skipBlanks b i) := rfl

theorem reads_attempt {x : Reader α} {a : α} (h : Reads x b i a j) : Reads (attempt x) b i (.ok a) j := by
  unfold Reads at *
  simp only [ReaderT.run, ExceptT.run, StateT.run] at *
  unfold attempt
  simp only [tryCatch, MonadExcept.tryCatch, MonadExceptOf.tryCatch, tryCatchThe, ExceptT.tryCatch, ExceptT.mk,
    Functor.map, ExceptT.map, bind, StateT.bind, h]
  rfl

theorem reads_scan {f : ByteArray → Nat → Except Fault (α × Nat)} {a : α} (h : f b i = .ok (a, j)) :
    Reads (scan f) b i a j := by
  unfold scan
  refine Reads.bind (a := b) rfl (Reads.bind (a := i) rfl ?_)
  simp only [h]
  exact Reads.bind (a := ()) rfl (reads_pure _)

theorem reads_container {depth : Nat} {body : Reader α} {close : Reader Unit} {a : α} (hd : 1 < depth)
    (hbody : Reads body b (i + 1) a j) (hclose : Reads close b j () k) : Reads (container depth body close) b i a k := by
  unfold container
  dsimp only
  rw [if_neg (by omega)]
  exact Reads.bind reads_eat (Reads.bind (reads_attempt hbody) (Reads.bind (reads_attempt hclose) (reads_pure a)))

end Run

/-! ## Tokens -/

/-- Blanks of the pretty layout: spaces and line breaks. -/
def Blanks (w : List UInt8) : Prop := ∀ x ∈ w, x = 32 ∨ x = 10

@[simp] theorem blanks_nil : Blanks [] := fun _ h => nomatch h

@[simp] theorem blanks_cons {x : UInt8} {w : List UInt8} : Blanks (x :: w) ↔ (x = 32 ∨ x = 10) ∧ Blanks w := by
  simp [Blanks]

section Tokens

variable {b : ByteArray} {i : Nat} {w r : List UInt8}

theorem skipBlanks_eq {r : List UInt8} (hr : ∀ c ∈ r.head?, ¬(c = 32 ∨ c = 10 ∨ c = 9 ∨ c = 13)) :
    ∀ {w : List UInt8} {i : Nat}, Blanks w → bytesFrom b i = w ++ r →
      skipBlanks b i = i + w.length
  | [], i, _, h => by
    rw [skipBlanks]
    simp only [List.nil_append] at h
    split
    · rename_i hi
      cases r with
      | nil => simp [bytesFrom, List.drop_eq_nil_iff] at h; omega
      | cons c r =>
        obtain ⟨_, hc⟩ := lt_size_of_bytesFrom h
        have := hr c (by simp)
        simp only [hc]
        split
        · simp_all
        · rfl
    · rfl
  | c :: w, i, hw, h => by
    obtain ⟨hi, hc⟩ := lt_size_of_bytesFrom h
    rw [skipBlanks, dif_pos hi]
    have hblank : (b[i] == 32 || b[i] == 10 || b[i] == 9 || b[i] == 13) = true := by
      rcases hw c (by simp) with h1 | h1 <;> simp [hc, h1]
    simp only [hblank, if_true]
    rw [skipBlanks_eq hr (w := w) (fun x hx => hw x (by simp [hx])) (bytesFrom_succ h), List.length_cons]
    omega

theorem reads_blank_some {c : UInt8} (hw : Blanks w) (hc : ¬(c = 32 ∨ c = 10 ∨ c = 9 ∨ c = 13))
    (h : bytesFrom b i = w ++ c :: r) : Reads blank? b i (some c) (i + w.length) := by
  have hskip := skipBlanks_eq (by simpa using hc) hw h
  have hbyte : byte? b (skipBlanks b i) = some c := by
    rw [hskip]
    exact byte?_of_bytesFrom (bytesFrom_add h)
  rw [← hbyte, ← hskip]
  exact reads_blank

theorem reads_blank_none (hw : Blanks w) (h : bytesFrom b i = w) :
    Reads blank? b i none (i + w.length) := by
  have h' : bytesFrom b i = w ++ [] := by rw [h, List.append_nil]
  have hskip := skipBlanks_eq (by simp) hw h'
  have hbyte : byte? b (skipBlanks b i) = none := by
    rw [hskip, byte?_eq_head?, bytesFrom_add h']
    rfl
  rw [← hbyte, ← hskip]
  exact reads_blank

theorem reads_nextKey_first (hw : Blanks w) (h : bytesFrom b i = w ++ 34 :: r) :
    Reads (nextKey? true) b i true (i + w.length) :=
  Reads.bind (reads_blank_some hw (by decide) h) (reads_pure _)

theorem reads_nextKey_comma (hw : Blanks w) (h : bytesFrom b i = 44 :: (w ++ 34 :: r)) :
    Reads (nextKey? false) b i true (i + 1 + w.length) :=
  Reads.bind (reads_blank_some (w := []) (by simp) (by decide) h)
    (Reads.bind reads_eat (Reads.bind (reads_blank_some hw (by decide) (bytesFrom_succ h)) (reads_pure _)))

theorem reads_nextKey_close {first : Bool} (hw : Blanks w) (h : bytesFrom b i = w ++ 125 :: r) :
    Reads (nextKey? first) b i false (i + w.length) :=
  Reads.bind (reads_blank_some hw (by decide) h) (reads_pure _)

theorem reads_nextItem_first {c : UInt8} (hw : Blanks w)
    (hc : ¬(c = 32 ∨ c = 10 ∨ c = 9 ∨ c = 13)) (hc' : c ≠ 93) (h : bytesFrom b i = w ++ c :: r) :
    Reads (nextItem? true) b i true (i + w.length) := by
  refine Reads.bind (reads_blank_some hw hc h) ?_
  split
  · contradiction
  · rename_i heq
    cases heq
    exact absurd rfl hc'
  · exact reads_pure _

theorem reads_nextItem_comma {c : UInt8} (hw : Blanks w)
    (hc : ¬(c = 32 ∨ c = 10 ∨ c = 9 ∨ c = 13)) (hc' : c ≠ 93) (h : bytesFrom b i = 44 :: (w ++ c :: r)) :
    Reads (nextItem? false) b i true (i + 1 + w.length) := by
  refine Reads.bind (reads_blank_some (w := []) (by simp) (by decide) h) ?_
  refine Reads.bind reads_eat (Reads.bind (reads_blank_some hw hc (bytesFrom_succ h)) ?_)
  split
  · rename_i heq
    cases heq
    exact absurd rfl hc'
  · exact reads_pure _
  · contradiction

theorem reads_colon (h : bytesFrom b i = 58 :: r) : Reads colon b i () (i + 1) :=
  Reads.bind (reads_blank_some (w := []) (by simp) (by decide) h) reads_eat

theorem reads_endMap (hw : Blanks w) (h : bytesFrom b i = w ++ 125 :: r) :
    Reads endMap b i () (i + w.length + 1) :=
  Reads.bind (reads_blank_some hw (by decide) h) reads_eat

theorem reads_endSeq (hw : Blanks w) (h : bytesFrom b i = w ++ 93 :: r) :
    Reads endSeq b i () (i + w.length + 1) :=
  Reads.bind (reads_blank_some hw (by decide) h) reads_eat

theorem reads_nextItem_close {first : Bool} (hw : Blanks w) (h : bytesFrom b i = w ++ 93 :: r) :
    Reads (nextItem? first) b i false (i + w.length) :=
  Reads.bind (reads_blank_some hw (by decide) h) (reads_pure _)

theorem reads_ident : ∀ (cs : List UInt8) {i : Nat} {r : List UInt8}, bytesFrom b i = cs ++ r →
    Reads (ident cs) b i () (i + cs.length)
  | [], i, r, _ => reads_pure ()
  | c :: cs, i, r, h => by
    unfold ident
    refine Reads.bind (Reads.bind (a := b) rfl (Reads.bind (a := i) rfl (reads_pure (byte? b i)))) ?_
    rw [byte?_of_bytesFrom h]
    refine Reads.bind reads_eat ?_
    dsimp only
    rw [if_neg (not_not.mpr rfl), List.length_cons, ← Nat.add_assoc, Nat.add_right_comm]
    exact reads_ident cs (bytesFrom_succ h)

theorem toUTF8_eq_flatMap (s : String) : s.toUTF8 = (s.toList.flatMap String.utf8EncodeChar).toByteArray := by
  conv_lhs => rw [← String.ofList_toList (s := s)]
  rw [String.toUTF8_eq_toByteArray, String.toByteArray_ofList]
  rfl

theorem fromUTF8?_toUTF8 (s : String) : String.fromUTF8? s.toUTF8 = some s := by
  unfold String.fromUTF8?
  rw [dif_pos (show s.toUTF8.IsValidUTF8 from s.isValidUTF8)]
  rfl

theorem reads_string {s : String}
    (h : bytesFrom b i = (s.toList.flatMap escapeChar).flatMap String.utf8EncodeChar ++ 34 :: r) :
    Reads string b i s (i + ((s.toList.flatMap escapeChar).flatMap String.utf8EncodeChar).length + 1) := by
  have hlen : ((s.toList.flatMap escapeChar).flatMap String.utf8EncodeChar).length < b.size + 1 := by
    have hl : (bytesFrom b i).length = b.size - i := by simp [bytesFrom]
    rw [h, List.length_append, List.length_cons] at hl
    omega
  unfold string
  apply reads_scan
  rw [scanString_escaped s.toList h hlen, ByteArray.empty_append, ← toUTF8_eq_flatMap]
  simp only [fromUTF8?_toUTF8, Option.getD_some]

end Tokens

/-! ## The bytes of pretty text -/

/-- The UTF-8 bytes of a text. -/
def bytesOf (s : String) : List UInt8 := s.toUTF8.data.toList

theorem bytesOf_append (s t : String) : bytesOf (s ++ t) = bytesOf s ++ bytesOf t := by
  simp [bytesOf, String.toUTF8_eq_toByteArray, String.toByteArray_append]

theorem bytesOf_ofList (l : List Char) : bytesOf (String.ofList l) = l.flatMap String.utf8EncodeChar := by
  simp [bytesOf, String.toUTF8_eq_toByteArray, String.toByteArray_ofList, List.utf8Encode]

theorem bytesOf_quote (s : String) :
    bytesOf (quote s) = 34 :: ((s.toList.flatMap escapeChar).flatMap String.utf8EncodeChar ++ [34]) := by
  rw [quote, bytesOf_ofList, List.flatMap_cons, List.flatMap_append]
  rfl

theorem bytesOf_indent (d : Nat) : bytesOf (indent d) = List.replicate (2 * d) 32 := by
  rw [indent, bytesOf_ofList, List.flatMap_replicate, show String.utf8EncodeChar ' ' = [32] from rfl,
    List.flatten_replicate_singleton]

/-- The bytes of an object's fields after its opening brace: each field on a
line of its own, after a comma but for the first. -/
def fieldBytes (depth : Nat) : Bool → List (String × Json) → List UInt8
  | _, [] => []
  | first, (k, v) :: fs =>
    (if first then [10] else [44, 10]) ++ List.replicate (2 * depth) 32 ++ bytesOf (quote k) ++ [58, 32] ++
      bytesOf (renderAt depth v) ++ fieldBytes depth false fs

/-- The bytes of an array's items after its opening bracket. -/
def itemBytes (depth : Nat) : Bool → List Json → List UInt8
  | _, [] => []
  | first, v :: vs =>
    (if first then [10] else [44, 10]) ++ List.replicate (2 * depth) 32 ++ bytesOf (renderAt depth v) ++
      itemBytes depth false vs

theorem bytesOf_prettyFields (d : Nat) (first : Bool) :
    ∀ (f : String × Json) (fs : List (String × Json)),
      (if first then [10] else [44, 10]) ++ bytesOf (prettyFields d (f :: fs)) = fieldBytes d first (f :: fs)
  | (k, v), [] => by
    simp only [prettyFields, fieldBytes, bytesOf_append, bytesOf_indent, List.append_nil, List.append_assoc]
    rfl
  | (k, v), f :: fs => by
    rw [prettyFields, fieldBytes, ← bytesOf_prettyFields d false f fs]
    · simp only [bytesOf_append, bytesOf_indent, List.append_assoc]
      rfl
    · exact List.cons_ne_nil f fs

theorem bytesOf_prettyItems (d : Nat) (first : Bool) :
    ∀ (v : Json) (vs : List Json),
      (if first then [10] else [44, 10]) ++ bytesOf (prettyItems d (v :: vs)) = itemBytes d first (v :: vs)
  | v, [] => by
    simp only [prettyItems, itemBytes, bytesOf_append, bytesOf_indent, List.append_nil, List.append_assoc]
  | v, u :: vs => by
    rw [prettyItems, itemBytes, ← bytesOf_prettyItems d false u vs]
    · simp only [bytesOf_append, bytesOf_indent, List.append_assoc]
      rfl
    · exact List.cons_ne_nil u vs

theorem bytesOf_renderAt_obj (d : Nat) (f : String × Json) (fs : List (String × Json)) :
    bytesOf (renderAt d (.obj (f :: fs))) =
      123 :: (fieldBytes (d + 1) true (f :: fs) ++ 10 :: List.replicate (2 * d) 32 ++ [125]) := by
  rw [renderAt, ← bytesOf_prettyFields]
  simp only [bytesOf_append, bytesOf_indent, List.append_assoc]
  rfl

theorem bytesOf_renderAt_arr (d : Nat) (v : Json) (vs : List Json) :
    bytesOf (renderAt d (.arr (v :: vs))) =
      91 :: (itemBytes (d + 1) true (v :: vs) ++ 10 :: List.replicate (2 * d) 32 ++ [93]) := by
  rw [renderAt, ← bytesOf_prettyItems]
  simp only [bytesOf_append, bytesOf_indent, List.append_assoc]
  rfl

theorem length_bytesOf (s : String) : (bytesOf s).length = s.utf8ByteSize := by
  simp [bytesOf]

/-! ## Reading pretty text back by a shape -/

/-- Reading by `shape` with nesting budget `depth` gives `j` back from its
pretty text at indentation `d`, after blanks of the layout, and stops where
the text ends, whatever follows it. -/
def ReadsBack (shape : Shape) (depth d : Nat) (j : Json) : Prop :=
  ∀ (b : ByteArray) (i : Nat) (w r : List UInt8) (fuel : Nat), Blanks w →
    bytesFrom b i = w ++ (bytesOf (renderAt d j) ++ r) → (bytesOf (renderAt d j)).length ≤ fuel →
      ∃ k, Reads (readShape fuel depth shape) b i j k ∧ bytesFrom b k = r

theorem readsBack_text (exp : String) (depth d : Nat) (s : String) : ReadsBack (.text exp) depth d (.str s) := by
  intro b i w r fuel hw h hfuel
  simp only [renderAt, bytesOf_quote, List.cons_append, List.append_assoc] at h hfuel
  obtain ⟨fuel, rfl⟩ : ∃ f, fuel = f + 1 := ⟨fuel - 1, by simp at hfuel; omega⟩
  have hbody := bytesFrom_succ (bytesFrom_add h)
  rw [readShape]
  exact ⟨_, Reads.bind (reads_blank_some hw (by decide) h)
    (Reads.bind reads_eat (Reads.bind (reads_string hbody) (reads_pure _))),
    bytesFrom_succ (bytesFrom_add hbody)⟩

theorem readsBack_bool (depth d : Nat) (v : Bool) : ReadsBack .bool depth d (.bool v) := by
  intro b i w r fuel hw h hfuel
  cases v with
  | true =>
    have h' : bytesFrom b i = w ++ 116 :: (rue ++ r) := h
    have hfuel' : 4 ≤ fuel := hfuel
    obtain ⟨fuel, rfl⟩ : ∃ f, fuel = f + 1 := ⟨fuel - 1, by omega⟩
    have hrest := bytesFrom_succ (bytesFrom_add h')
    rw [readShape]
    exact ⟨_, Reads.bind (reads_blank_some hw (by decide) h')
      (Reads.bind reads_eat (Reads.bind (reads_ident rue hrest) (reads_pure _))), bytesFrom_add hrest⟩
  | false =>
    have h' : bytesFrom b i = w ++ 102 :: (alse ++ r) := h
    have hfuel' : 5 ≤ fuel := hfuel
    obtain ⟨fuel, rfl⟩ : ∃ f, fuel = f + 1 := ⟨fuel - 1, by omega⟩
    have hrest := bytesFrom_succ (bytesFrom_add h')
    rw [readShape]
    exact ⟨_, Reads.bind (reads_blank_some hw (by decide) h')
      (Reads.bind reads_eat (Reads.bind (reads_ident alse hrest) (reads_pure _))), bytesFrom_add hrest⟩

theorem foldl_insertField (fs acc : List (String × Json)) :
    fs.foldl (fun acc e => insertField e.1 e.2 acc) acc = fs.foldl (fun m e => KeyMap.insert e.1 e.2 m) acc := by
  have hstep : ∀ (k : String) (v : Json) (m : List (String × Json)), insertField k v m = KeyMap.insert k v m := by
    intro k v m
    simpa using insertField_map (fun e : String × Json => e) (fun _ => rfl) k v m
  induction fs generalizing acc with
  | nil => rfl
  | cons e fs ih => rw [List.foldl_cons, List.foldl_cons, hstep, ih]

theorem foldl_insertField_of_sorted {fs : List (String × Json)} (hs : KeyMap.Sorted fs) :
    fs.foldl (fun acc e => insertField e.1 e.2 acc) [] = fs := by
  rw [foldl_insertField]
  exact KeyMap.collect_eq_of_perm hs (List.Perm.refl fs)

section Containers

variable {item : Shape} {depth d : Nat} {b : ByteArray} {w r : List UInt8}

theorem reads_key {k : String} {i : Nat} (h : bytesFrom b i = bytesOf (quote k) ++ r) :
    ∃ j, Reads key b i k j ∧ bytesFrom b j = r := by
  rw [bytesOf_quote, List.cons_append, List.append_assoc] at h
  have hbody := bytesFrom_succ h
  exact ⟨_, Reads.bind reads_eat (reads_string hbody), bytesFrom_succ (bytesFrom_add hbody)⟩

theorem blank_indent (d : Nat) : Blanks (10 :: List.replicate (2 * d) 32) := by
  simp only [Blanks, List.mem_cons, List.mem_replicate]
  rintro x (rfl | ⟨-, rfl⟩) <;> simp

theorem reads_nextKey_key {first : Bool} {k : String} {v : Json} {fs : List (String × Json)} {i : Nat}
    {R : List UInt8} (h : bytesFrom b i = fieldBytes d first ((k, v) :: fs) ++ R) :
    ∃ p p₁, Reads (nextKey? first) b i true p ∧ Reads key b p k p₁ ∧
      bytesFrom b p₁ = 58 :: 32 :: (bytesOf (renderAt d v) ++ (fieldBytes d false fs ++ R)) := by
  obtain ⟨q, hq⟩ : ∃ q, bytesOf (quote k) = 34 :: q := ⟨_, bytesOf_quote k⟩
  have hnext : ∃ p, Reads (nextKey? first) b i true p ∧ bytesFrom b p = bytesOf (quote k) ++
      (58 :: 32 :: (bytesOf (renderAt d v) ++ (fieldBytes d false fs ++ R))) := by
    cases first with
    | true =>
      have h' : bytesFrom b i = (10 :: List.replicate (2 * d) 32) ++ 34 :: (q ++
          58 :: 32 :: (bytesOf (renderAt d v) ++ (fieldBytes d false fs ++ R))) := by
        rw [h]
        simp [fieldBytes, hq]
      exact ⟨_, reads_nextKey_first (blank_indent d) h', by rw [bytesFrom_add h', hq, List.cons_append]⟩
    | false =>
      have h' : bytesFrom b i = 44 :: ((10 :: List.replicate (2 * d) 32) ++ 34 :: (q ++
          58 :: 32 :: (bytesOf (renderAt d v) ++ (fieldBytes d false fs ++ R)))) := by
        rw [h]
        simp [fieldBytes, hq]
      exact ⟨_, reads_nextKey_comma (blank_indent d) h', by rw [bytesFrom_add (bytesFrom_succ h'), hq, List.cons_append]⟩
  obtain ⟨p, hp, hpb⟩ := hnext
  obtain ⟨p₁, hp₁, hp₁b⟩ := reads_key hpb
  exact ⟨p, p₁, hp, hp₁, hp₁b⟩

/-- The fields of an object are read in turn, each inserted by its key, up to
the closing brace. -/
theorem reads_entries (hw : Blanks w) :
    ∀ (fs : List (String × Json)), (∀ e ∈ fs, ReadsBack item depth d e.2) →
    ∀ (first : Bool) (acc : List (String × Json)) (i fuel : Nat),
      bytesFrom b i = fieldBytes d first fs ++ (w ++ 125 :: r) → (fieldBytes d first fs).length < fuel →
      ∃ k, Reads (readShapeEntries fuel depth item first acc) b i
        (fs.foldl (fun acc e => insertField e.1 e.2 acc) acc) k ∧ bytesFrom b k = 125 :: r
  | [], _, first, acc, i, fuel, h, hfuel => by
    obtain ⟨fuel, rfl⟩ : ∃ f, fuel = f + 1 := ⟨fuel - 1, by simp [fieldBytes] at hfuel; omega⟩
    simp only [fieldBytes, List.nil_append] at h
    rw [readShapeEntries]
    exact ⟨_, Reads.bind (reads_nextKey_close hw h) (reads_pure _), bytesFrom_add h⟩
  | (k, v) :: fs, hitems, first, acc, i, fuel, h, hfuel => by
    obtain ⟨fuel, rfl⟩ : ∃ f, fuel = f + 1 := ⟨fuel - 1, by omega⟩
    have hlen : (bytesOf (renderAt d v)).length ≤ fuel ∧ (fieldBytes d false fs).length < fuel := by
      simp only [fieldBytes, List.length_append, List.length_cons, List.length_nil] at hfuel
      cases first <;> simp at hfuel <;> omega
    obtain ⟨p, p₁, hp, hp₁, hp₁b⟩ := reads_nextKey_key h
    have hcolon := reads_colon hp₁b
    obtain ⟨p₂, hp₂, hp₂b⟩ := hitems (k, v) List.mem_cons_self b (p₁ + 1) [32] _ fuel (by simp)
      (bytesFrom_succ hp₁b) hlen.1
    obtain ⟨p₃, hp₃, hp₃b⟩ := reads_entries hw fs (fun e he => hitems e (List.mem_cons_of_mem _ he)) false
      (insertField k v acc) p₂ fuel hp₂b hlen.2
    rw [readShapeEntries]
    exact ⟨p₃, Reads.bind hp (Reads.bind hp₁ (Reads.bind hcolon (Reads.bind hp₂ hp₃))), hp₃b⟩

theorem bytesOf_renderAt_obj' (d : Nat) (fs : List (String × Json)) : ∃ w', Blanks w' ∧
    bytesOf (renderAt d (.obj fs)) = 123 :: (fieldBytes (d + 1) true fs ++ (w' ++ [125])) := by
  cases fs with
  | nil => exact ⟨[], by simp, rfl⟩
  | cons f fs =>
    refine ⟨10 :: List.replicate (2 * d) 32, blank_indent d, ?_⟩
    rw [bytesOf_renderAt_obj]
    simp

theorem bytesOf_renderAt_arr' (d : Nat) (vs : List Json) : ∃ w', Blanks w' ∧
    bytesOf (renderAt d (.arr vs)) = 91 :: (itemBytes (d + 1) true vs ++ (w' ++ [93])) := by
  cases vs with
  | nil => exact ⟨[], by simp, rfl⟩
  | cons v vs =>
    refine ⟨10 :: List.replicate (2 * d) 32, blank_indent d, ?_⟩
    rw [bytesOf_renderAt_arr]
    simp

/-- A sorted object whose values read back by the item shape reads back as a
dictionary, one level of nesting deeper. -/
theorem readsBack_dict (hdepth : 1 < depth) {fs : List (String × Json)} (hsorted : KeyMap.Sorted fs)
    (hitems : ∀ e ∈ fs, ReadsBack item (depth - 1) (d + 1) e.2) : ReadsBack (.dict item) depth d (.obj fs) := by
  intro b i w r fuel hw h hfuel
  obtain ⟨w', hw', hbytes⟩ := bytesOf_renderAt_obj' d fs
  rw [hbytes] at h hfuel
  have h' : bytesFrom b i = w ++ 123 :: (fieldBytes (d + 1) true fs ++ (w' ++ 125 :: r)) := by
    rw [h]
    simp
  obtain ⟨fuel, rfl⟩ : ∃ f, fuel = f + 1 := ⟨fuel - 1, by simp at hfuel; omega⟩
  obtain ⟨k, hk, hkb⟩ := reads_entries hw' fs hitems true [] _ fuel (bytesFrom_succ (bytesFrom_add h'))
    (by simp at hfuel; omega)
  rw [foldl_insertField_of_sorted hsorted] at hk
  rw [readShape]
  exact ⟨_, Reads.bind (reads_blank_some hw (by decide) h')
    (reads_container hdepth (Reads.bind hk (reads_pure _)) (reads_endMap (w := []) (by simp) hkb)),
    bytesFrom_succ hkb⟩

/-- The items of an array are read in turn, up to the closing bracket. Each
item's text starts with a byte that is neither a blank nor a closing bracket. -/
theorem reads_items (hw : Blanks w) :
    ∀ (vs : List Json), (∀ v ∈ vs, ReadsBack item depth d v) →
    (∀ v ∈ vs, ∃ c q, bytesOf (renderAt d v) = c :: q ∧ ¬(c = 32 ∨ c = 10 ∨ c = 9 ∨ c = 13) ∧ c ≠ 93) →
    ∀ (first : Bool) (acc : List Json) (i fuel : Nat),
      bytesFrom b i = itemBytes d first vs ++ (w ++ 93 :: r) → (itemBytes d first vs).length < fuel →
      ∃ k, Reads (readShapeItems fuel depth item first acc) b i (acc.reverse ++ vs) k ∧ bytesFrom b k = 93 :: r
  | [], _, _, first, acc, i, fuel, h, hfuel => by
    obtain ⟨fuel, rfl⟩ : ∃ f, fuel = f + 1 := ⟨fuel - 1, by simp [itemBytes] at hfuel; omega⟩
    simp only [itemBytes, List.nil_append] at h
    rw [readShapeItems, List.append_nil]
    exact ⟨_, Reads.bind (reads_nextItem_close hw h) (reads_pure _), bytesFrom_add h⟩
  | v :: vs, hitems, hstart, first, acc, i, fuel, h, hfuel => by
    obtain ⟨fuel, rfl⟩ : ∃ f, fuel = f + 1 := ⟨fuel - 1, by omega⟩
    obtain ⟨c, q, hcq, hc, hc'⟩ := hstart v List.mem_cons_self
    have hlen : (bytesOf (renderAt d v)).length ≤ fuel ∧ (itemBytes d false vs).length < fuel := by
      simp only [itemBytes, List.length_append] at hfuel
      cases first <;> simp at hfuel <;> omega
    have hnext : ∃ p, Reads (nextItem? first) b i true p ∧
        bytesFrom b p = bytesOf (renderAt d v) ++ (itemBytes d false vs ++ (w ++ 93 :: r)) := by
      cases first with
      | true =>
        have h' : bytesFrom b i = (10 :: List.replicate (2 * d) 32) ++ c :: (q ++
            (itemBytes d false vs ++ (w ++ 93 :: r))) := by
          rw [h]
          simp [itemBytes, hcq]
        exact ⟨_, reads_nextItem_first (blank_indent d) hc hc' h', by rw [bytesFrom_add h', hcq, List.cons_append]⟩
      | false =>
        have h' : bytesFrom b i = 44 :: ((10 :: List.replicate (2 * d) 32) ++ c :: (q ++
            (itemBytes d false vs ++ (w ++ 93 :: r)))) := by
          rw [h]
          simp [itemBytes, hcq]
        exact ⟨_, reads_nextItem_comma (blank_indent d) hc hc' h',
          by rw [bytesFrom_add (bytesFrom_succ h'), hcq, List.cons_append]⟩
    obtain ⟨p, hp, hpb⟩ := hnext
    obtain ⟨p₁, hp₁, hp₁b⟩ := hitems v List.mem_cons_self b p [] _ fuel (by simp) hpb hlen.1
    obtain ⟨p₂, hp₂, hp₂b⟩ := reads_items hw vs (fun u hu => hitems u (List.mem_cons_of_mem _ hu))
      (fun u hu => hstart u (List.mem_cons_of_mem _ hu)) false (v :: acc) p₁ fuel hp₁b hlen.2
    rw [List.reverse_cons, List.append_assoc, List.singleton_append] at hp₂
    rw [readShapeItems]
    exact ⟨p₂, Reads.bind hp (Reads.bind hp₁ hp₂), hp₂b⟩

/-- An array whose items read back by the item shape reads back as a list, one
level of nesting deeper. -/
theorem readsBack_list (hdepth : 1 < depth) {vs : List Json}
    (hitems : ∀ v ∈ vs, ReadsBack item (depth - 1) (d + 1) v)
    (hstart : ∀ v ∈ vs, ∃ c q, bytesOf (renderAt (d + 1) v) = c :: q ∧ ¬(c = 32 ∨ c = 10 ∨ c = 9 ∨ c = 13) ∧
      c ≠ 93) : ReadsBack (.list item) depth d (.arr vs) := by
  intro b i w r fuel hw h hfuel
  obtain ⟨w', hw', hbytes⟩ := bytesOf_renderAt_arr' d vs
  rw [hbytes] at h hfuel
  have h' : bytesFrom b i = w ++ 91 :: (itemBytes (d + 1) true vs ++ (w' ++ 93 :: r)) := by
    rw [h]
    simp
  obtain ⟨fuel, rfl⟩ : ∃ f, fuel = f + 1 := ⟨fuel - 1, by simp at hfuel; omega⟩
  obtain ⟨k, hk, hkb⟩ := reads_items hw' vs hitems hstart true [] _ fuel (bytesFrom_succ (bytesFrom_add h'))
    (by simp at hfuel; omega)
  rw [List.reverse_nil, List.nil_append] at hk
  rw [readShape]
  exact ⟨_, Reads.bind (reads_blank_some hw (by decide) h')
    (reads_container hdepth (Reads.bind hk (reads_pure _)) (reads_endSeq (w := []) (by simp) hkb)),
    bytesFrom_succ hkb⟩

/-- The fields of a record written as an object are read in turn, each by the
field its key names, up to the closing brace; they are kept in order. -/
theorem reads_recordFields {fields : List Field} (hw : Blanks w) :
    ∀ (fs : List (String × Json)),
      (∀ e ∈ fs, ∃ f, fields.find? (·.accepts e.1) = some f ∧ f.name = e.1 ∧ ReadsBack f.shape depth d e.2) →
      (fs.map Prod.fst).Nodup →
    ∀ (first : Bool) (acc : List (String × Json)) (i fuel : Nat), (∀ e ∈ fs, acc.lookup e.1 = none) →
      bytesFrom b i = fieldBytes d first fs ++ (w ++ 125 :: r) → (fieldBytes d first fs).length < fuel →
      ∃ k, Reads (readRecordFields fuel depth fields first acc) b i (acc ++ fs) k ∧ bytesFrom b k = 125 :: r
  | [], _, _, first, acc, i, fuel, _, h, hfuel => by
    obtain ⟨fuel, rfl⟩ : ∃ f, fuel = f + 1 := ⟨fuel - 1, by simp [fieldBytes] at hfuel; omega⟩
    simp only [fieldBytes, List.nil_append] at h
    rw [readRecordFields, List.append_nil]
    exact ⟨_, Reads.bind (reads_nextKey_close hw h) (reads_pure _), bytesFrom_add h⟩
  | (k, v) :: fs, hfields, hnodup, first, acc, i, fuel, hfresh, h, hfuel => by
    obtain ⟨fuel, rfl⟩ : ∃ f, fuel = f + 1 := ⟨fuel - 1, by omega⟩
    have hlen : (bytesOf (renderAt d v)).length ≤ fuel ∧ (fieldBytes d false fs).length < fuel := by
      simp only [fieldBytes, List.length_append] at hfuel
      cases first <;> simp at hfuel <;> omega
    obtain ⟨f, hfind, hname, hback⟩ := hfields (k, v) List.mem_cons_self
    obtain ⟨hk, hnodup'⟩ := List.nodup_cons.mp hnodup
    dsimp only at hfind hname hback hk
    obtain ⟨p, p₁, hp, hp₁, hp₁b⟩ := reads_nextKey_key h
    have hcolon := reads_colon hp₁b
    obtain ⟨p₂, hp₂, hp₂b⟩ := hback b (p₁ + 1) [32] _ fuel (by simp) (bytesFrom_succ hp₁b) hlen.1
    -- the fields after this one are not among those read so far
    have hfresh' : ∀ e ∈ fs, (acc ++ [(k, v)]).lookup e.1 = none := by
      intro e he
      have hne : e.1 ≠ k := fun heq => hk (heq ▸ List.mem_map_of_mem (f := Prod.fst) he)
      have := hfresh e (List.mem_cons_of_mem _ he)
      simp [List.lookup_append, this, List.lookup_cons, beq_false_of_ne hne]
    obtain ⟨p₃, hp₃, hp₃b⟩ := reads_recordFields hw fs (fun e he => hfields e (List.mem_cons_of_mem _ he)) hnodup'
      false (acc ++ [(k, v)]) p₂ fuel hfresh' hp₂b hlen.2
    rw [List.append_cons]
    rw [readRecordFields]
    refine ⟨p₃, Reads.bind hp (Reads.bind hp₁ ?_), hp₃b⟩
    rw [hfind]
    dsimp only
    rw [hname, if_neg (by simp [hfresh (k, v) List.mem_cons_self])]
    exact Reads.bind hcolon (Reads.bind hp₂ hp₃)

/-- An object whose fields are those of a record, each under the name of the
field that reads it, in the order the record finishes them, reads back as
the record, one level of nesting deeper. -/
theorem readsBack_record (hdepth : 1 < depth) {name : String} {fields : List Field}
    {fs : List (String × Json)}
    (hfields : ∀ e ∈ fs, ∃ f, fields.find? (·.accepts e.1) = some f ∧ f.name = e.1 ∧
      ReadsBack f.shape (depth - 1) (d + 1) e.2)
    (hnodup : (fs.map Prod.fst).Nodup) (hfinish : finishRecord fields fs = .ok fs) :
    ReadsBack (.record name fields) depth d (.obj fs) := by
  intro b i w r fuel hw h hfuel
  obtain ⟨w', hw', hbytes⟩ := bytesOf_renderAt_obj' d fs
  rw [hbytes] at h hfuel
  have h' : bytesFrom b i = w ++ 123 :: (fieldBytes (d + 1) true fs ++ (w' ++ 125 :: r)) := by
    rw [h]
    simp
  obtain ⟨fuel, rfl⟩ : ∃ f, fuel = f + 1 := ⟨fuel - 1, by simp at hfuel; omega⟩
  obtain ⟨k, hk, hkb⟩ := reads_recordFields hw' fs hfields hnodup true [] _ fuel (by simp)
    (bytesFrom_succ (bytesFrom_add h')) (by simp at hfuel; omega)
  rw [List.nil_append] at hk
  rw [readShape]
  refine ⟨_, Reads.bind (reads_blank_some hw (by decide) h')
    (reads_container hdepth (Reads.bind hk ?_) (reads_endMap (w := []) (by simp) hkb)), bytesFrom_succ hkb⟩
  simp only [hfinish]
  exact reads_pure _

end Containers

/-! ## Documents -/

theorem runDocument_of_reads {α : Type} {x : Reader α} {text : String} {a : α} {k : Nat}
    (h : Reads x text.toUTF8 0 a k) (hk : bytesFrom text.toUTF8 k = []) : runDocument x text = .ok a := by
  have hrun : ∀ {y : Reader α} {k' : Nat}, Reads y text.toUTF8 0 a k' → ((y.run text.toUTF8).run.run 0).1 = .ok a :=
    fun hy => by
      unfold Reads at hy
      rw [hy]
  unfold runDocument
  exact hrun (Reads.bind h (Reads.bind (reads_blank_none (w := []) (by simp) hk) (reads_pure a)))

/-- **Pretty text reads back.** A value whose pretty text reads back by a shape
at the reader's nesting budget is read back from its whole pretty text. -/
theorem readText_renderPretty {shape : Shape} {j : Json} (h : ReadsBack shape 128 0 j) :
    readText shape (renderPretty j) = .ok j := by
  have hbytes : bytesFrom (renderPretty j).toUTF8 0 = [] ++ (bytesOf (renderAt 0 j) ++ []) := by
    simp [bytesFrom, bytesOf, renderPretty]
  obtain ⟨k, hk, hkb⟩ := h _ 0 [] [] (2 * (renderPretty j).utf8ByteSize + 4) (by simp) hbytes (by
    rw [length_bytesOf]
    unfold renderPretty
    omega)
  exact runDocument_of_reads hk hkb

end ModMirror.Json
