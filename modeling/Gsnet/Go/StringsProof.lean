import Gsnet.Go.Strings

/-!
# Trimmed text and lines

What the parsers rely on: a text that `TrimSpace` has been through begins and
ends with no white space, and stays as it is when it is put next to ASCII; a
field without the separator is cut off where it ends; lines are read back as they
were written.
-/

namespace Gsnet.Go

/-! ## White space runes -/

/-- The bytes of one white space rune. -/
def IsSpace (w : GoString) : Prop := w ≠ [] ∧ spaceLen w = w.length

/-- The encodings of white space: an ASCII character, or a rune of two or three bytes. -/
inductive SpaceRune : GoString → Prop where
  | ascii {a : UInt8} (h : isAsciiSpace a = true) : SpaceRune [a]
  | two {b : UInt8} (h : rune2 0xC2 b = true) : SpaceRune [0xC2, b]
  | three {a b c : UInt8} (h : rune3 a b c = true) (ha : a < 0xEF) : SpaceRune [a, b, c]

/-- What the search for a white space rune at the front finds. -/
theorem spaceLen_cases (s : GoString) :
    spaceLen s = 0 ∨ ∃ w t, s = w ++ t ∧ spaceLen s = w.length ∧ w ≠ []
      ∧ (∀ u, spaceLen (w ++ u) = w.length) ∧ SpaceRune w := by
  unfold spaceLen
  split
  · exact .inl rfl
  rename_i a t
  split
  · rename_i h
    exact .inr ⟨[a], t, rfl, rfl, by simp, fun u => by simp [h], .ascii h⟩
  rename_i hascii
  clear hascii
  split
  · -- U+0085 and U+00A0
    rename_i b u
    split
    · rename_i hb
      refine .inr ⟨[0xC2, b], u, rfl, rfl, by simp, fun u => by simp [hb]; decide, .two ?_⟩
      have hb' : b = 0x85 ∨ b = 0xA0 := by simpa using hb
      rcases hb' with rfl | rfl
      · decide
      · decide
    · exact .inl rfl
  · rename_i u
    exact .inr ⟨[0xE1, 0x9A, 0x80], u, rfl, rfl, by simp, fun u => rfl,
      .three (by decide) (by decide)⟩
  · -- U+2000 and following
    rename_i c u
    split
    · rename_i hc
      refine .inr ⟨[0xE2, 0x80, c], u, rfl, rfl, by simp, fun u => by simp [hc]; decide,
        .three ?_ (by decide)⟩
      have htail : isTail c = true := by
        simp only [Bool.or_eq_true, Bool.and_eq_true, decide_eq_true_eq, beq_iff_eq] at hc
        rcases hc with ((⟨hc, hc'⟩ | rfl) | rfl) | rfl
        · simpa [isTail] using ⟨hc, UInt8.le_trans hc' (by decide)⟩
        · decide
        · decide
        · decide
      simpa [rune3] using ⟨by decide, htail⟩
    · exact .inl rfl
  · rename_i u
    exact .inr ⟨[0xE2, 0x81, 0x9F], u, rfl, rfl, by simp, fun u => rfl,
      .three (by decide) (by decide)⟩
  · rename_i u
    exact .inr ⟨[0xE3, 0x80, 0x80], u, rfl, rfl, by simp, fun u => rfl,
      .three (by decide) (by decide)⟩
  · exact .inl rfl

/-- **A text begins with white space exactly when a white space rune is in front of it.** -/
theorem spaceLen_ne_zero_iff {s : GoString} :
    spaceLen s ≠ 0 ↔ ∃ w, IsSpace w ∧ w <+: s := by
  constructor
  · intro h
    obtain ⟨w, t, hs, -, hne, hw, -⟩ := (spaceLen_cases s).resolve_left h
    exact ⟨w, ⟨hne, by simpa using hw []⟩, ⟨t, hs.symm⟩⟩
  · rintro ⟨w, ⟨hne, hw⟩, t, rfl⟩
    have hpos : spaceLen w ≠ 0 := by rw [hw]; simpa using hne
    obtain ⟨w', t', hs, hlen, -, hw', -⟩ := (spaceLen_cases w).resolve_left hpos
    rw [hs, List.append_assoc, hw', ← hlen]
    exact hpos

theorem IsSpace.rune {w : GoString} (h : IsSpace w) : SpaceRune w := by
  obtain ⟨hne, hw⟩ := h
  have hpos : spaceLen w ≠ 0 := by rw [hw]; simpa using hne
  obtain ⟨w', t, hs, hlen, -, -, hrune⟩ := (spaceLen_cases w).resolve_left hpos
  have ht : t = [] := by
    have hl := congrArg List.length hs
    rw [List.length_append, ← hlen, hw] at hl
    exact List.eq_nil_of_length_eq_zero (by omega)
  rw [hs, ht, List.append_nil]
  exact hrune

theorem le_of_isTail {b : UInt8} (h : isTail b = true) : 0x80 ≤ b := by
  simp only [isTail, Bool.and_eq_true, decide_eq_true_eq] at h
  exact h.1

/-- A white space rune is one byte, or none of its bytes is ASCII. -/
theorem IsSpace.bytes {w : GoString} (h : IsSpace w) : w.length = 1 ∨ ∀ b ∈ w, 0x80 ≤ b := by
  cases h.rune with
  | ascii => exact .inl rfl
  | two h2 =>
      simp only [rune2, Bool.and_eq_true] at h2
      exact .inr (by simpa using le_of_isTail h2.2)
  | three h3 ha =>
      simp only [rune3, Bool.and_eq_true, decide_eq_true_eq] at h3
      refine .inr ?_
      simpa using ⟨UInt8.le_trans (by decide) h3.1.1.1.1.1, le_of_isTail h3.1.1.1.2,
        le_of_isTail h3.1.1.2⟩

theorem isSpace_singleton {a : UInt8} : IsSpace [a] ↔ isAsciiSpace a = true := by
  constructor
  · rintro ⟨-, h⟩
    by_contra hn
    have h1 : spaceLen [a] = 1 := h
    simp only [spaceLen, hn, if_false] at h1
    cases h1
  · exact fun h => ⟨by simp, by simp [spaceLen, h]⟩

/-- **The same at the end of a text**, which is read backwards. -/
theorem lastSpaceLen_ne_zero_iff {r : GoString} :
    lastSpaceLen r ≠ 0 ↔ ∃ w, IsSpace w ∧ w.reverse <+: r := by
  constructor
  · intro h
    unfold lastSpaceLen at h
    split at h
    · exact absurd rfl h
    rename_i a t
    split at h
    · rename_i ha
      exact ⟨[a], isSpace_singleton.mpr ha, ⟨t, rfl⟩⟩
    split at h
    · exact absurd rfl h
    rename_i b t
    split at h
    · rename_i hb
      exact ⟨[b, a], ⟨by simp, hb⟩, ⟨t, rfl⟩⟩
    split at h
    · exact absurd rfl h
    rename_i c t
    split at h
    · rename_i hc
      exact ⟨[c, b, a], ⟨by simp, hc⟩, ⟨t, rfl⟩⟩
    · exact absurd rfl h
  · rintro ⟨w, hw, t, rfl⟩
    -- one, two or three bytes, looked for in this order
    have hlen := hw.2
    cases hw.rune with
    | ascii h => simp [lastSpaceLen, h]
    | two h =>
        simp only [List.length_cons, List.length_nil] at hlen
        simp only [List.reverse_cons, List.reverse_nil, List.nil_append, List.cons_append,
          lastSpaceLen, hlen, if_true]
        split <;> simp
    | three h ha =>
        simp only [List.length_cons, List.length_nil] at hlen
        simp only [List.reverse_cons, List.reverse_nil, List.nil_append, List.cons_append,
          lastSpaceLen, hlen, if_true]
        split
        · simp
        · split <;> simp

/-! ## Trimming -/

/-- No white space at either end. -/
def Trimmed (s : GoString) : Prop := spaceLen s = 0 ∧ lastSpaceLen s.reverse = 0

instance (s : GoString) : Decidable (Trimmed s) := inferInstanceAs (Decidable (_ ∧ _))

/-- No white space rune anywhere in the text. -/
def NoSpace (s : GoString) : Prop := ∀ w, IsSpace w → ¬ w <:+: s

theorem NoSpace.tail {a : UInt8} {s : GoString} (h : NoSpace (a :: s)) : NoSpace s :=
  fun w hw hin => h w hw (hin.trans (List.suffix_cons a s).isInfix)

theorem NoSpace.spaceLen {s : GoString} (h : NoSpace s) : Go.spaceLen s = 0 := by
  by_contra hn
  obtain ⟨w, hw, hpre⟩ := spaceLen_ne_zero_iff.mp hn
  exact h w hw hpre.isInfix

theorem noSpace_iff {s : GoString} : NoSpace s ↔ ∀ t ∈ s.tails, Go.spaceLen t = 0 := by
  constructor
  · intro h t ht
    by_contra hn
    obtain ⟨w, hw, hpre⟩ := spaceLen_ne_zero_iff.mp hn
    exact h w hw (hpre.isInfix.trans ((List.mem_tails t s).mp ht).isInfix)
  · rintro h w hw ⟨u, v, rfl⟩
    have htail : w ++ v ∈ (u ++ w ++ v).tails :=
      (List.mem_tails _ _).mpr ⟨u, (List.append_assoc u w v).symm⟩
    exact spaceLen_ne_zero_iff.mpr ⟨w, hw, List.prefix_append w v⟩ (h _ htail)

instance (s : GoString) : Decidable (NoSpace s) := decidable_of_iff _ noSpace_iff.symm

theorem NoSpace.trimmed {s : GoString} (h : NoSpace s) : Trimmed s := by
  refine ⟨h.spaceLen, ?_⟩
  by_contra hn
  obtain ⟨w, hw, hpre⟩ := lastSpaceLen_ne_zero_iff.mp hn
  refine h w hw (List.IsSuffix.isInfix ?_)
  rwa [← List.reverse_prefix]

theorem noSpace_ascii {s : GoString} (h : ∀ b ∈ s, b < 0x80 ∧ isAsciiSpace b = false) :
    NoSpace s := by
  -- a white space rune in the text would be one of its characters
  intro w hw hin
  rcases hw.bytes with h1 | hhigh
  · obtain ⟨a, rfl⟩ := List.length_eq_one_iff.mp h1
    have ha := (h a (hin.subset List.mem_cons_self)).2
    rw [isSpace_singleton.mp hw] at ha
    cases ha
  · obtain ⟨a, ha⟩ := List.exists_mem_of_ne_nil w hw.1
    exact absurd (h a (hin.subset ha)).1 (UInt8.not_lt.mpr (hhigh a ha))

theorem NoSpace.notMem {s : GoString} (h : NoSpace s) {a : UInt8} (ha : isAsciiSpace a = true) :
    a ∉ s := by
  intro hm
  obtain ⟨u, v, rfl⟩ := List.append_of_mem hm
  exact h [a] (isSpace_singleton.mpr ha) ⟨u, v, by simp⟩

/-- Text without white space is trimmed. -/
theorem trimmed_of_ascii {s : GoString} (h : ∀ b ∈ s, b < 0x80 ∧ isAsciiSpace b = false) :
    Trimmed s :=
  (noSpace_ascii h).trimmed

theorem trimLeftFrom_of_not_space {s : GoString} (h : spaceLen s = 0) : trimLeftFrom 0 s = s := by
  cases s with
  | nil => rfl
  | cons a t => rw [trimLeftFrom, if_neg (by decide), h]

theorem trimRightFrom_of_not_space {r : GoString} (h : lastSpaceLen r = 0) :
    trimRightFrom 0 r = r := by
  cases r with
  | nil => rfl
  | cons a t => rw [trimRightFrom, if_neg (by decide), h]

theorem trimSpace_of_trimmed {s : GoString} (h : Trimmed s) : trimSpace s = s := by
  rw [trimSpace, trimLeftFrom_of_not_space h.1, trimRightFrom_of_not_space h.2,
    List.reverse_reverse]

/-- What is left begins with no white space. -/
theorem spaceLen_trimLeftFrom (skip : Nat) (s : GoString) : spaceLen (trimLeftFrom skip s) = 0 := by
  induction s generalizing skip with
  | nil => rfl
  | cons a t ih =>
      rw [trimLeftFrom]
      split
      · exact ih _
      · cases h : spaceLen (a :: t) with
        | zero => exact h
        | succ n => exact ih n

theorem trimRightFrom_suffix (skip : Nat) (r : GoString) :
    trimRightFrom skip r <:+ r ∧ lastSpaceLen (trimRightFrom skip r) = 0 := by
  induction r generalizing skip with
  | nil => exact ⟨List.suffix_refl _, rfl⟩
  | cons a t ih =>
      rw [trimRightFrom]
      split
      · obtain ⟨h1, h2⟩ := ih (skip - 1)
        exact ⟨h1.trans (List.suffix_cons a t), h2⟩
      · cases h : lastSpaceLen (a :: t) with
        | zero => exact ⟨List.suffix_refl _, h⟩
        | succ n =>
            obtain ⟨h1, h2⟩ := ih n
            exact ⟨h1.trans (List.suffix_cons a t), h2⟩

/-- **`TrimSpace` leaves no white space at either end.** -/
theorem trimmed_trimSpace (s : GoString) : Trimmed (trimSpace s) := by
  obtain ⟨hsuf, hlast⟩ := trimRightFrom_suffix 0 (trimLeftFrom 0 s).reverse
  refine ⟨?_, by rw [trimSpace, List.reverse_reverse]; exact hlast⟩
  -- a part of the front cannot begin with a rune that the whole does not begin with
  by_contra h
  obtain ⟨w, hw, hle⟩ := spaceLen_ne_zero_iff.mp h
  have hle' : trimSpace s <+: trimLeftFrom 0 s := by
    rw [trimSpace, ← List.reverse_reverse (trimLeftFrom 0 s), List.reverse_prefix,
      List.reverse_reverse]
    exact hsuf
  exact absurd (spaceLen_trimLeftFrom 0 s) (spaceLen_ne_zero_iff.mpr ⟨w, hw, hle.trans hle'⟩)

/-- A rune in front of a text that is followed by ASCII is in front of the text itself. -/
theorem prefix_of_prefix_ascii {w s t : GoString} {a : UInt8}
    (hw : w.length = 1 ∨ ∀ b ∈ w, 0x80 ≤ b) (hne : s ≠ []) (ha : a < 0x80)
    (h : w <+: s ++ a :: t) : w <+: s := by
  rcases List.prefix_or_prefix_of_prefix h (List.prefix_append s (a :: t)) with hle | ⟨u, rfl⟩
  · exact hle
  cases u with
  | nil => simp
  | cons c u =>
      rw [List.prefix_append_right_inj, List.cons_prefix_cons] at h
      obtain ⟨rfl, -⟩ := h
      have hpos := List.length_pos_of_ne_nil hne
      rcases hw with hone | hhigh
      · simp at hone
        omega
      · exact absurd (hhigh c (by simp)) (UInt8.not_le.mpr ha)

/-- ASCII after a text does not make white space of its beginning. -/
theorem spaceLen_append_ascii {s : GoString} (h : spaceLen s = 0) (hne : s ≠ []) {a : UInt8}
    (ha : a < 0x80) (t : GoString) : spaceLen (s ++ a :: t) = 0 := by
  by_contra hn
  obtain ⟨w, hw, hpre⟩ := spaceLen_ne_zero_iff.mp hn
  exact absurd h (spaceLen_ne_zero_iff.mpr ⟨w, hw, prefix_of_prefix_ascii hw.bytes hne ha hpre⟩)

/-- Nor does ASCII before a text make white space of its end. -/
theorem lastSpaceLen_append_ascii {r : GoString} (h : lastSpaceLen r = 0) (hne : r ≠ [])
    {a : UInt8} (ha : a < 0x80) (t : GoString) : lastSpaceLen (r ++ a :: t) = 0 := by
  by_contra hn
  obtain ⟨w, hw, hpre⟩ := lastSpaceLen_ne_zero_iff.mp hn
  have hb : w.reverse.length = 1 ∨ ∀ b ∈ w.reverse, 0x80 ≤ b := by simpa using hw.bytes
  exact absurd h (lastSpaceLen_ne_zero_iff.mpr ⟨w, hw, prefix_of_prefix_ascii hb hne ha hpre⟩)

/-- **Two trimmed texts with ASCII between them are trimmed.** -/
theorem Trimmed.join {s t mid : GoString} (hs : Trimmed s) (hs' : s ≠ []) (ht : Trimmed t)
    (ht' : t ≠ []) (hmid : ∀ b ∈ mid, b < 0x80) (hmid' : mid ≠ []) : Trimmed (s ++ mid ++ t) := by
  constructor
  · obtain ⟨a, mid, rfl⟩ := List.exists_cons_of_ne_nil hmid'
    rw [List.append_assoc, List.cons_append]
    exact spaceLen_append_ascii hs.1 hs' (hmid a List.mem_cons_self) _
  · obtain ⟨mid, a, rfl⟩ := List.eq_nil_or_concat mid |>.resolve_left hmid'
    rw [List.reverse_append, List.reverse_append, List.concat_eq_append, List.reverse_append,
      List.reverse_singleton, List.singleton_append, List.cons_append]
    exact lastSpaceLen_append_ascii ht.2 (by simpa using ht') (hmid a (by simp)) _

/-- A space in front is taken off. -/
theorem trimSpace_space_cons {s : GoString} (h : Trimmed s) : trimSpace (0x20 :: s) = s := by
  have hleft : trimLeftFrom 0 (0x20 :: s) = trimLeftFrom 0 s := rfl
  rw [trimSpace, hleft]
  exact trimSpace_of_trimmed h

/-- And so is one at the end, or the newline of a line. -/
theorem trimSpace_append_space {s : GoString} (h : Trimmed s) (hne : s ≠ []) {a : UInt8}
    (ha : isAsciiSpace a = true) (hlt : a < 0x80) : trimSpace (s ++ [a]) = s := by
  have hright : trimRightFrom 0 (a :: s.reverse) = trimRightFrom 0 s.reverse := by
    have hlen : lastSpaceLen (a :: s.reverse) = 1 := by simp [lastSpaceLen, ha]
    rw [trimRightFrom, if_neg (by decide), hlen]
  rw [trimSpace, trimLeftFrom_of_not_space (spaceLen_append_ascii h.1 hne hlt []),
    List.reverse_append, List.reverse_singleton, List.singleton_append, hright,
    trimRightFrom_of_not_space h.2, List.reverse_reverse]

theorem trimLeftFrom_suffix (skip : Nat) (s : GoString) : trimLeftFrom skip s <:+ s := by
  induction s generalizing skip with
  | nil => exact List.suffix_rfl
  | cons a t ih =>
      rw [trimLeftFrom]
      split
      · exact (ih _).trans (List.suffix_cons a t)
      · split
        · exact List.suffix_rfl
        · exact (ih _).trans (List.suffix_cons a t)

theorem mem_of_mem_trimSpace {s : GoString} {b : UInt8} (h : b ∈ trimSpace s) : b ∈ s := by
  have hright := (trimRightFrom_suffix 0 (trimLeftFrom 0 s).reverse).1.mem (List.mem_reverse.mp h)
  exact (trimLeftFrom_suffix 0 s).mem (List.mem_reverse.mp hright)

theorem length_trimSpace_le (s : GoString) : (trimSpace s).length ≤ s.length := by
  have hright := (trimRightFrom_suffix 0 (trimLeftFrom 0 s).reverse).1.length_le
  have hleft := (trimLeftFrom_suffix 0 s).length_le
  rw [List.length_reverse] at hright
  rw [trimSpace, List.length_reverse]
  omega

/-- Where nothing has to be taken off in front, what is left is the beginning. -/
theorem trimSpace_front {s : GoString} (h : spaceLen s = 0) : trimSpace s <+: s := by
  have hsuf := (trimRightFrom_suffix 0 s.reverse).1
  rw [trimSpace, trimLeftFrom_of_not_space h]
  simpa using List.reverse_prefix.mpr hsuf

/-- The beginning of a text that does not begin with white space does not either. -/
theorem spaceLen_front {s t : GoString} (hpre : s <+: t) (h : spaceLen t = 0) :
    spaceLen s = 0 := by
  by_contra hn
  obtain ⟨w, hw, hws⟩ := spaceLen_ne_zero_iff.mp hn
  exact spaceLen_ne_zero_iff.mpr ⟨w, hw, hws.trans hpre⟩ h

/-- A trimmed text ends with no carriage return. -/
theorem dropCR_of_trimmed {s : GoString} (h : Trimmed s) : dropCR s = s := by
  unfold dropCR
  refine if_neg fun hlast => ?_
  obtain ⟨t, rfl⟩ := List.getLast?_eq_some_iff.mp hlast
  have hsp := h.2
  rw [List.reverse_append] at hsp
  cases hsp

theorem mem_of_mem_dropCR {s : GoString} {b : UInt8} (h : b ∈ dropCR s) : b ∈ s := by
  unfold dropCR at h
  split at h
  · exact List.mem_of_mem_dropLast h
  · exact h

theorem length_dropCR_le (s : GoString) : (dropCR s).length ≤ s.length := by
  unfold dropCR
  split
  · rw [List.length_dropLast]
    omega
  · exact Nat.le_refl _

/-! ## Cutting -/

theorem cut_append {sep : UInt8} {s : GoString} (h : sep ∉ s) (t : GoString) :
    cut sep (s ++ sep :: t) = (s, some t) := by
  have hne : ∀ c ∈ s, (c != sep) = true := fun c hc => by
    simpa using fun heq : c = sep => h (heq ▸ hc)
  unfold cut
  rw [List.dropWhile_append_of_pos hne, List.takeWhile_append_of_pos hne]
  simp

theorem cut_of_notMem {sep : UInt8} {s : GoString} (h : sep ∉ s) : cut sep s = (s, none) := by
  have hne : ∀ c ∈ s, (c != sep) = true := fun c hc => by
    simpa using fun heq : c = sep => h (heq ▸ hc)
  unfold cut
  rw [List.dropWhile_eq_nil_iff.mpr hne]

theorem cut_eq_some {sep : UInt8} {s k v : GoString} (h : cut sep s = (k, some v)) :
    s = k ++ sep :: v ∧ sep ∉ k := by
  unfold cut at h
  split at h
  · cases h
  · rename_i c after hdrop
    cases h
    have hc : c = sep := by
      have hhead := List.head?_dropWhile_not (· != sep) s
      rw [hdrop] at hhead
      simpa using hhead
    constructor
    · rw [hc] at hdrop
      rw [← hdrop, List.takeWhile_append_dropWhile]
    · intro hm
      simpa using List.mem_takeWhile_imp hm

theorem cut_eq_none {sep : UInt8} {s k : GoString} (h : cut sep s = (k, none)) : sep ∉ s := by
  unfold cut at h
  split at h
  · rename_i hnil
    intro hm
    simpa using List.dropWhile_eq_nil_iff.mp hnil sep hm
  · cases h

/-! ## Lower case -/

theorem length_toLower_le (s : GoString) : (toLower s).length ≤ s.length := by
  induction s using toLower.induct with
  | case1 => exact Nat.le_refl 0
  | case2 t ih =>
      rw [toLower]
      simp only [List.length_cons]
      omega
  | case3 t ih =>
      rw [toLower]
      simp only [List.length_cons]
      omega
  | case4 a t h1 h2 ih =>
      rw [toLower]
      · simpa using ih
      · exact h1
      · exact h2

theorem length_toLower_ascii {s : GoString} (h : ∀ b ∈ s, b < 0x80) :
    (toLower s).length = s.length := by
  induction s with
  | nil => rfl
  | cons a t ih =>
      have ha := h a List.mem_cons_self
      rw [toLower]
      · simpa using ih fun b hb => h b (List.mem_cons_of_mem a hb)
      · rintro u rfl
        exact absurd ha (by decide)
      · rintro u rfl
        exact absurd ha (by decide)

/-! ## Words -/

theorem fieldsFrom_cons {s word k : GoString} {ks : List GoString}
    (hs : word ≠ [] ∨ spaceLen s = 0) (h : fieldsFrom 0 word s = k :: ks) :
    ∃ u t, s = u ++ t ∧ k = word ++ u ∧ ∀ i < u.length, spaceLen (s.drop i) = 0 := by
  induction s generalizing word with
  | nil =>
      rw [fieldsFrom] at h
      split at h
      · cases h
      · cases h
        exact ⟨[], [], rfl, by simp, by simp⟩
  | cons a t ih =>
      rw [fieldsFrom, if_neg (by simp)] at h
      split at h
      · -- one more byte of the word
        rename_i h0
        obtain ⟨u, t, rfl, rfl, hu⟩ := ih (.inl (by simp)) h
        refine ⟨a :: u, t, rfl, by simp, fun i hi => ?_⟩
        cases i with
        | zero => exact h0
        | succ i => exact hu i (by simpa using hi)
      · rename_i n hn
        have hword : word ≠ [] := hs.resolve_right (by rw [hn]; simp)
        rw [if_neg hword] at h
        cases h
        exact ⟨[], a :: t, rfl, by simp, by simp⟩

/-- The first word of a text that begins with one: no white space begins inside it. -/
theorem fields_cons {s k : GoString} {ks : List GoString} (hs : spaceLen s = 0)
    (h : fields s = k :: ks) : k <+: s ∧ Trimmed k := by
  obtain ⟨u, t, rfl, hk, hu⟩ := fieldsFrom_cons (.inr hs) h
  rw [List.nil_append] at hk
  subst hk
  refine ⟨⟨t, rfl⟩, spaceLen_front ⟨t, rfl⟩ hs, ?_⟩
  by_contra hn
  obtain ⟨w, hw, v, hv⟩ := lastSpaceLen_ne_zero_iff.mp hn
  have hk : k = v.reverse ++ w := by
    rw [← List.reverse_reverse k, ← hv, List.reverse_append, List.reverse_reverse]
  have hlen : v.reverse.length < k.length := by
    have := List.length_pos_of_ne_nil hw.1
    rw [hk, List.length_append]
    omega
  refine spaceLen_ne_zero_iff.mpr ⟨w, hw, t, ?_⟩ (hu _ hlen)
  rw [hk, List.append_assoc, List.drop_left]

/-- A word ends at the space behind it. -/
theorem fieldsFrom_word {k : GoString} (h : NoSpace k) {word : GoString} (hne : word ++ k ≠ [])
    (t : GoString) : fieldsFrom 0 word (k ++ 0x20 :: t) = (word ++ k) :: fieldsFrom 0 [] t := by
  induction k generalizing word with
  | nil =>
      rw [List.append_nil] at hne ⊢
      rw [List.nil_append, fieldsFrom, if_neg (by simp)]
      exact if_neg hne
  | cons a k ih =>
      have hsp : Go.spaceLen (a :: (k ++ 0x20 :: t)) = 0 :=
        spaceLen_append_ascii h.spaceLen (by simp) (by decide) t
      rw [List.cons_append, fieldsFrom, if_neg (by simp), hsp]
      refine (ih h.tail (by simp)).trans ?_
      simp

/-- The last word ends with the text. -/
theorem fieldsFrom_last {k : GoString} (h : NoSpace k) {word : GoString} (hne : word ++ k ≠ []) :
    fieldsFrom 0 word k = [word ++ k] := by
  induction k generalizing word with
  | nil =>
      rw [List.append_nil] at hne ⊢
      exact if_neg hne
  | cons a k ih =>
      rw [fieldsFrom, if_neg (by simp), h.spaceLen]
      refine (ih h.tail (by simp)).trans ?_
      simp

/-- **Words with a space between them** are read back. -/
theorem fields_words {k : GoString} {ks : List GoString} (h : ∀ w ∈ k :: ks, NoSpace w ∧ w ≠ []) :
    fields (k ++ ks.flatMap (0x20 :: ·)) = k :: ks := by
  unfold fields
  induction ks generalizing k with
  | nil =>
      obtain ⟨hk, hne⟩ := h k List.mem_cons_self
      rw [List.flatMap_nil, List.append_nil, fieldsFrom_last hk (by simpa using hne),
        List.nil_append]
  | cons k' ks ih =>
      obtain ⟨hk, hne⟩ := h k List.mem_cons_self
      rw [List.flatMap_cons, List.cons_append, fieldsFrom_word hk (by simpa using hne),
        ih fun w hw => h w (List.mem_cons_of_mem _ hw), List.nil_append]

/-- A word that was begun is one of the words. -/
theorem fieldsFrom_ne_nil {word : GoString} (h : word ≠ []) (skip : Nat) (s : GoString) :
    fieldsFrom skip word s ≠ [] := by
  induction s generalizing skip word with
  | nil => simp [fieldsFrom, h]
  | cons a t ih =>
      rw [fieldsFrom]
      split
      · exact ih h _
      · split
        · exact ih (by simp) 0
        · exact List.cons_ne_nil _ _

/-- **A key and what follows it**: the first word, and at least one more. -/
theorem fields_pair {k v : GoString} (hk : NoSpace k) (hk' : k ≠ []) (hv : Go.spaceLen v = 0)
    (hv' : v ≠ []) : ∃ x xs, fields (k ++ 0x20 :: v) = k :: x :: xs := by
  have hword := @fieldsFrom_word k hk [] (by simpa using hk') v
  rw [List.nil_append] at hword
  obtain ⟨a, t, rfl⟩ := List.exists_cons_of_ne_nil hv'
  have hrest : fieldsFrom 0 [] (a :: t) = fieldsFrom 0 [a] t := by
    rw [fieldsFrom, if_neg (by simp), hv]
    rfl
  obtain ⟨x, xs, hx⟩ :=
    List.exists_cons_of_ne_nil (@fieldsFrom_ne_nil [a] (by simp) 0 t)
  exact ⟨x, xs, by rw [fields, hword, hrest, hx]⟩

/-! ## Lines -/

theorem rawLines_append {l : GoString} (h : 0x0A ∉ l) (line t : GoString) :
    rawLines line (l ++ 0x0A :: t) = (line ++ l) :: rawLines [] t := by
  induction l generalizing line with
  | nil => simp [rawLines]
  | cons c l ih =>
      have hc : c ≠ 0x0A := fun heq => h (heq ▸ List.mem_cons_self)
      rw [List.cons_append, rawLines, if_neg hc, ih (fun hm => h (List.mem_cons_of_mem c hm))]
      simp

/-- **Lines that were written are read back**, and what follows them after them. -/
theorem rawLines_lines {ls : List GoString} (h : ∀ l ∈ ls, 0x0A ∉ l) (t : GoString) :
    rawLines [] (ls.flatMap (· ++ [0x0A]) ++ t) = ls ++ rawLines [] t := by
  induction ls with
  | nil => rfl
  | cons l ls ih =>
      rw [List.flatMap_cons, List.append_assoc, List.append_assoc, List.singleton_append,
        rawLines_append (h l List.mem_cons_self), ih fun m hm => h m (List.mem_cons_of_mem l hm)]
      rfl

/-- A text that ends with a line feed is read to its end before what follows. -/
theorem rawLines_append_text (line s t : GoString) :
    rawLines line (s ++ 0x0A :: t) = rawLines line (s ++ [0x0A]) ++ rawLines [] t := by
  induction s generalizing line with
  | nil => simp [rawLines]
  | cons c s ih =>
      rw [List.cons_append, List.cons_append, rawLines, rawLines]
      split
      · rw [ih, List.cons_append]
      · exact ih (line ++ [c])

theorem rawLines_of_notMem {l : GoString} (h : 0x0A ∉ l) (line : GoString) :
    rawLines line l = if line ++ l = [] then [] else [line ++ l] := by
  induction l generalizing line with
  | nil => rw [rawLines, List.append_nil]
  | cons c l ih =>
      have hc : c ≠ 0x0A := fun heq => h (heq ▸ List.mem_cons_self)
      rw [rawLines, if_neg hc, ih fun hm => h (List.mem_cons_of_mem c hm), List.append_assoc]
      rfl

/-- A scanner that meets no line it cannot hold delivers all of them. -/
theorem scanLines_of_short {s : GoString} (h : ∀ l ∈ rawLines [] s, l.length ≤ maxLine) :
    scanLines s = ((rawLines [] s).map dropCR, false) := by
  have hall : (rawLines [] s).takeWhile (·.length ≤ maxLine) = rawLines [] s :=
    List.takeWhile_eq_self_iff.mpr fun l hl => by simpa using h l hl
  have hany : (rawLines [] s).any (maxLine < ·.length) = false := by simpa using h
  rw [scanLines, hall, hany]

theorem scanLines_of_long {s : GoString} (h : ¬ ∀ l ∈ rawLines [] s, l.length ≤ maxLine) :
    (rawLines [] s).any (maxLine < ·.length) = true := by
  simpa using h

/-- A line that is read has no line feed in it. -/
theorem notMem_rawLines {line s : GoString} (hline : 0x0A ∉ line) :
    ∀ l ∈ rawLines line s, 0x0A ∉ l := by
  induction s generalizing line with
  | nil =>
      intro l hl
      rw [rawLines] at hl
      split at hl
      · cases hl
      · rw [List.mem_singleton.mp hl]
        exact hline
  | cons c s ih =>
      intro l hl
      rw [rawLines] at hl
      split at hl
      · rcases List.mem_cons.mp hl with rfl | hl
        · exact hline
        · exact ih List.not_mem_nil l hl
      · rename_i hc
        refine ih ?_ l hl
        simp only [List.mem_append, List.mem_singleton, not_or]
        exact ⟨hline, fun heq => hc heq.symm⟩

end Gsnet.Go
