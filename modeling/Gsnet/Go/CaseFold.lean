import Gsnet.Go.StringsProof

/-!
# Case folding

`strings.EqualFold` on any two strings: they have as many runes, and each is equal
to its counterpart under simple case folding. The table is Unicode's and stands as
a parameter; what is assumed of it is what it says of ASCII and of white space.

A key is compared with a literal almost everywhere in the program, and there
`equalFold` decides (`equalFold_iff`). Only the keys that come from the command
line, and statements about every key, need the general relation.
-/

namespace Gsnet.Go

/-- The runes of a string as a `range` loop yields them, each by its encoding. -/
def runes : GoString → List GoString
  | [] => []
  | a :: t =>
    match runeLen a t, t with
    | 1, t => [a] :: runes t
    | 2, b :: t => [a, b] :: runes t
    | 3, b :: c :: t => [a, b, c] :: runes t
    | 4, b :: c :: d :: t => [a, b, c, d] :: runes t
    | _, t => runeError :: runes t

/-- Simple case folding of runes, `unicode.SimpleFold`. -/
class CaseFold where
  /-- One rune for all that are equal under case folding. -/
  fold : GoString → GoString
  /-- What folds with an ASCII character: its other case, U+017F with `S` and U+212A with `K`. -/
  fold_ascii : ∀ {b : UInt8} (r : GoString), b < 0x80 →
    (fold r = fold [b] ↔ foldName r = foldName [b])
  /-- White space has no case. -/
  fold_space : ∀ {w r : GoString}, IsSpace w → fold r = fold w → r = w

/-- `strings.EqualFold`. -/
def EqualFold [CaseFold] (s t : GoString) : Prop :=
  (runes s).map CaseFold.fold = (runes t).map CaseFold.fold

instance [CaseFold] (s t : GoString) : Decidable (EqualFold s t) :=
  inferInstanceAs (Decidable (_ = _))

/-! ## Runes -/

theorem runes_nil : runes [] = [] := rfl

/-- The equation all the others are read off. -/
theorem runes_cons (a : UInt8) (t : GoString) :
    runes (a :: t) = match runeLen a t, t with
      | 1, t => [a] :: runes t
      | 2, b :: t => [a, b] :: runes t
      | 3, b :: c :: t => [a, b, c] :: runes t
      | 4, b :: c :: d :: t => [a, b, c, d] :: runes t
      | _, t => runeError :: runes t := by
  conv_lhs => unfold runes
  rfl

theorem runes_one {a : UInt8} (t : GoString) (ha : a < 0x80) : runes (a :: t) = [a] :: runes t := by
  simp only [runes_cons, runeLen_one ha]

theorem runes_two {a b : UInt8} (t : GoString) (ha : ¬ a < 0x80) (h : rune2 a b = true) :
    runes (a :: b :: t) = [a, b] :: runes t := by
  simp only [runes_cons, runeLen_two t ha h]

theorem runes_three {a b c : UInt8} (t : GoString) (ha : ¬ a < 0x80) (h2 : ¬ rune2 a b = true)
    (h : rune3 a b c = true) : runes (a :: b :: c :: t) = [a, b, c] :: runes t := by
  simp only [runes_cons, runeLen_three t ha h2 h]

theorem runes_four {a b c d : UInt8} (t : GoString) (ha : ¬ a < 0x80) (h2 : ¬ rune2 a b = true)
    (h3 : ¬ rune3 a b c = true) (h : rune4 a b c d = true) :
    runes (a :: b :: c :: d :: t) = [a, b, c, d] :: runes t := by
  simp only [runes_cons, runeLen_four t ha h2 h3 h]

theorem runes_bad {a : UInt8} {t : GoString} (h : runeLen a t = 0) :
    runes (a :: t) = runeError :: runes t := by
  simp [runes_cons, h]

theorem runes_ascii {s : GoString} (h : ∀ b ∈ s, b < 0x80) : runes s = s.map ([·]) := by
  induction s with
  | nil => rfl
  | cons a t ih =>
      rw [runes_one t (h a List.mem_cons_self), ih fun b hb => h b (List.mem_cons_of_mem a hb)]
      rfl

/--
**Induction along the runes, all of them at once**: each is a piece of the string,
or stands for a byte that begins none. The bytes of a longer piece are not ASCII.
-/
theorem pieces_induct {P : GoString → Prop} (nil : P [])
    (ascii : ∀ a t, a < 0x80 → runes (a :: t) = [a] :: runes t → P t → P (a :: t))
    (piece : ∀ p t, 1 < p.length → (∀ b ∈ p, 0x80 ≤ b) → runes (p ++ t) = p :: runes t →
      P t → P (p ++ t))
    (bad : ∀ a t, ¬ a < 0x80 → runes (a :: t) = runeError :: runes t → P t → P (a :: t)) :
    ∀ s, P s := by
  intro s
  induction s using runes_induct with
  | nil => exact nil
  | one a t ha ih => exact ascii a t ha (runes_one t ha) ih
  | two a b t ha h2 ih =>
      refine piece [a, b] t (by simp) ?_ (runes_two t ha h2) ih
      simp only [rune2, Bool.and_eq_true] at h2
      simpa using ⟨UInt8.not_lt.mp ha, le_of_isTail h2.2⟩
  | three a b c t ha h2 h3 ih =>
      refine piece [a, b, c] t (by simp) ?_ (runes_three t ha h2 h3) ih
      simp only [rune3, Bool.and_eq_true] at h3
      simpa using ⟨UInt8.not_lt.mp ha, le_of_isTail h3.1.1.1.2, le_of_isTail h3.1.1.2⟩
  | four a b c d t ha h2 h3 h4 ih =>
      refine piece [a, b, c, d] t (by simp) ?_ (runes_four t ha h2 h3 h4) ih
      simp only [rune4, Bool.and_eq_true] at h4
      simpa using ⟨UInt8.not_lt.mp ha, le_of_isTail h4.1.1.1.1.2, le_of_isTail h4.1.1.1.2,
        le_of_isTail h4.1.1.2⟩
  | bad a t ha h0 ih => exact bad a t ha (runes_bad h0) ih

theorem runes_eq_nil {s : GoString} (h : runes s = []) : s = [] := by
  induction s using pieces_induct with
  | nil => rfl
  | ascii a t ha hr ih => rw [hr] at h; cases h
  | piece p t hp hb hr ih => rw [hr] at h; cases h
  | bad a t ha hr ih => rw [hr] at h; cases h

/-- An ASCII character of a string is one of its runes. -/
theorem mem_runes {b : UInt8} (hb : b < 0x80) (s : GoString) : [b] ∈ runes s ↔ b ∈ s := by
  induction s using pieces_induct with
  | nil => simp [runes_nil]
  | ascii a t ha hr ih => simp [hr, ih]
  | piece p t hp hhigh hr ih =>
      have hne : [b] ≠ p := fun heq => by simp [← heq] at hp
      have hnot : b ∉ p := fun hm => absurd hb (UInt8.not_lt.mpr (hhigh b hm))
      simp [hr, ih, hne, hnot]
  | bad a t ha hr ih =>
      have hne : b ≠ a := fun heq => ha (heq ▸ hb)
      simp [hr, ih, hne, runeError]

theorem head_runes {b : UInt8} (hb : b < 0x80) (s : GoString) :
    (runes s).head? = some [b] ↔ s.head? = some b := by
  induction s using pieces_induct with
  | nil => simp [runes_nil]
  | ascii a t ha hr ih => simp [hr]
  | piece p t hp hhigh hr ih =>
      obtain ⟨c, p, rfl⟩ := List.exists_cons_of_length_pos (by omega : 0 < p.length)
      have hne : c ≠ b := fun heq => by
        have := hhigh c List.mem_cons_self
        rw [heq] at this
        exact absurd hb (UInt8.not_lt.mpr this)
      rw [hr]
      simp [hne]
  | bad a t ha hr ih =>
      have hne : a ≠ b := fun heq => ha (heq ▸ hb)
      simp [hr, hne, runeError]

/-- A rune other than U+FFFD stands in the string as it is, here the first. -/
theorem prefix_of_runes {w : GoString} {ts : List GoString} (hw : w ≠ runeError) {s : GoString}
    (h : runes s = w :: ts) : w <+: s := by
  induction s using pieces_induct with
  | nil => cases h
  | ascii a t ha hr ih =>
      rw [hr] at h
      cases h
      exact ⟨t, rfl⟩
  | piece p t hp hhigh hr ih =>
      rw [hr] at h
      cases h
      exact ⟨t, rfl⟩
  | bad a t ha hr ih =>
      rw [hr] at h
      cases h
      exact absurd rfl hw

/-- And here the last. -/
theorem suffix_of_runes {w : GoString} {ts : List GoString} (hw : w ≠ runeError) {s : GoString}
    (h : runes s = ts ++ [w]) : w <:+ s := by
  induction s using pieces_induct generalizing ts with
  | nil => simp [runes_nil] at h
  | ascii a t ha hr ih =>
      rw [hr] at h
      cases ts with
      | nil =>
          obtain ⟨rfl, ht⟩ := List.cons.inj h
          rw [runes_eq_nil ht]
      | cons r ts => exact (ih (List.cons.inj h).2).trans (List.suffix_cons a t)
  | piece p t hp hhigh hr ih =>
      rw [hr] at h
      cases ts with
      | nil =>
          obtain ⟨rfl, ht⟩ := List.cons.inj h
          rw [runes_eq_nil ht, List.append_nil]
      | cons r ts => exact (ih (List.cons.inj h).2).trans (List.suffix_append p t)
  | bad a t ha hr ih =>
      rw [hr] at h
      cases ts with
      | nil => exact absurd (List.cons.inj h).1.symm hw
      | cons r ts => exact (ih (List.cons.inj h).2).trans (List.suffix_cons a t)

/-- A byte that begins no rune still begins none before a byte that continues none. -/
theorem runeLen_append_bad {a : UInt8} {t u : GoString} (ha : ¬ a < 0x80) (h : runeLen a t = 0)
    (hu : ∀ b ∈ u.head?, isTail b = false) : runeLen a (t ++ u) = 0 := by
  have h2 : ∀ b, isTail b = false → rune2 a b = false := fun b hb => by simp [rune2, hb]
  have h3 : ∀ b c, isTail b = false ∨ isTail c = false → rune3 a b c = false :=
    fun b c hb => by rcases hb with hb | hb <;> simp [rune3, hb]
  have h4 : ∀ b c d, isTail b = false ∨ isTail c = false ∨ isTail d = false →
      rune4 a b c d = false := fun b c d hb => by rcases hb with hb | hb | hb <;> simp [rune4, hb]
  cases u with
  | nil => rwa [List.append_nil]
  | cons x u =>
      have hx : isTail x = false := hu x rfl
      -- the bytes of `t` are looked at first, and `x` as the second to fourth byte
      rcases t with _ | ⟨b, _ | ⟨c, _ | ⟨d, t⟩⟩⟩
      · rcases u with _ | ⟨c, _ | ⟨d, u⟩⟩
        · simp [runeLen, ha, h2 x hx]
        · simp [runeLen, ha, h2 x hx, h3 x c (.inl hx)]
        · simp [runeLen, ha, h2 x hx, h3 x c (.inl hx), h4 x c d (.inl hx)]
      · cases u with
        | nil => simp_all [runeLen]
        | cons d u => simp_all [runeLen]
      · simp_all [runeLen]
      · simpa [runeLen] using h

/-- Where a string can be cut: what comes next begins with no continuation byte. -/
theorem runes_append {s u : GoString} (hu : ∀ b ∈ u.head?, isTail b = false) :
    runes (s ++ u) = runes s ++ runes u := by
  induction s using runes_induct with
  | nil => rfl
  | one a t ha ih =>
      rw [List.cons_append, runes_one _ ha, runes_one _ ha, ih, List.cons_append]
  | two a b t ha h2 ih =>
      rw [runes_two t ha h2]
      exact (runes_two (t ++ u) ha h2).trans (congrArg _ ih)
  | three a b c t ha h2 h3 ih =>
      rw [runes_three t ha h2 h3]
      exact (runes_three (t ++ u) ha h2 h3).trans (congrArg _ ih)
  | four a b c d t ha h2 h3 h4 ih =>
      rw [runes_four t ha h2 h3 h4]
      exact (runes_four (t ++ u) ha h2 h3 h4).trans (congrArg _ ih)
  | bad a t ha h0 ih =>
      rw [List.cons_append, runes_bad (runeLen_append_bad ha h0 hu), runes_bad h0, ih,
        List.cons_append]

theorem isAsciiSpace_lt {a : UInt8} (h : isAsciiSpace a = true) : a < 0x80 := by
  simp only [isAsciiSpace, Bool.or_eq_true, Bool.and_eq_true, beq_iff_eq, decide_eq_true_eq] at h
  rcases h with rfl | ⟨-, h⟩
  · decide
  · exact UInt8.lt_of_le_of_lt h (by decide)

/-- White space is a rune where it stands: it is one encoding, and continues none. -/
theorem IsSpace.runes_eq {w : GoString} (h : IsSpace w) :
    (∀ u, runes (w ++ u) = w :: runes u) ∧ (∀ b ∈ w.head?, isTail b = false) ∧ w ≠ runeError := by
  cases h.rune with
  | @ascii a hs =>
      have ha := isAsciiSpace_lt hs
      refine ⟨fun u => runes_one u ha, ?_, by simp [runeError]⟩
      simpa [isTail] using fun hle => absurd ha (UInt8.not_lt.mpr hle)
  | two h2 => exact ⟨fun u => runes_two u (by decide) h2, by simp [isTail], by simp [runeError]⟩
  | @three a b c h3 ha =>
      have hlo : 0xE0 ≤ a := by
        simp only [rune3, Bool.and_eq_true, decide_eq_true_eq] at h3
        exact h3.1.1.1.1.1
      have hnlt : ¬ a < 0x80 := UInt8.not_lt.mpr (UInt8.le_trans (by decide) hlo)
      have hn2 : ¬ rune2 a b = true := fun h2 => by
        simp only [rune2, Bool.and_eq_true, decide_eq_true_eq] at h2
        exact absurd (UInt8.le_trans hlo h2.1.2) (by decide)
      refine ⟨fun u => runes_three u hnlt hn2 h3, ?_, ?_⟩
      · simpa [isTail] using fun _ => UInt8.lt_of_lt_of_le (by decide) hlo
      · intro heq
        rw [(List.cons.inj heq).1] at ha
        exact absurd ha (by decide)

/-! ## Folding a name -/

/-- An ASCII letter in upper case. -/
def foldByte (a : UInt8) : UInt8 := if 0x61 ≤ a && a ≤ 0x7A then a - 0x20 else a

/-- A byte that is no letter, in either case. -/
def Caseless (b : UInt8) : Prop := ¬ (0x41 ≤ b ∧ b ≤ 0x5A) ∧ ¬ (0x61 ≤ b ∧ b ≤ 0x7A)

instance (b : UInt8) : Decidable (Caseless b) := inferInstanceAs (Decidable (_ ∧ _))

/-- What the folding of a single byte does, over all of them. -/
theorem foldByte_facts : ∀ a : UInt8, (a < 0x80 → foldByte a < 0x80)
    ∧ (0x80 ≤ a → Caseless a) ∧ (isAsciiSpace a = true → Caseless a)
    ∧ (Caseless a → foldByte a = a) ∧ (Caseless (foldByte a) → foldByte a = a) := by
  decide +kernel

theorem foldByte_lt {a : UInt8} (h : a < 0x80) : foldByte a < 0x80 := (foldByte_facts a).1 h

theorem foldByte_of_caseless {a : UInt8} (h : Caseless a) : foldByte a = a :=
  (foldByte_facts a).2.2.2.1 h

theorem foldByte_of_high {a : UInt8} (h : 0x80 ≤ a) : foldByte a = a :=
  foldByte_of_caseless ((foldByte_facts a).2.1 h)

/-- All but two runes are folded byte by byte. -/
theorem foldName_cons {a : UInt8} {t : GoString} (hS : ∀ u, a :: t ≠ [0xC5, 0xBF] ++ u)
    (hK : ∀ u, a :: t ≠ [0xE2, 0x84, 0xAA] ++ u) :
    foldName (a :: t) = foldByte a :: foldName t := by
  rw [foldName]
  · rfl
  · rintro u rfl rfl
    exact hS u rfl
  · rintro u rfl rfl
    exact hK u rfl

theorem foldName_one {a : UInt8} (ha : a < 0x80) (t : GoString) :
    foldName (a :: t) = foldByte a :: foldName t := by
  refine foldName_cons (fun u hu => ?_) (fun u hu => ?_)
  · rw [(List.cons.inj hu).1] at ha
    exact absurd ha (by decide)
  · rw [(List.cons.inj hu).1] at ha
    exact absurd ha (by decide)

theorem length_foldName_le (s : GoString) : (foldName s).length ≤ s.length := by
  induction s using foldName.induct with
  | case1 => exact Nat.le_refl 0
  | case2 t ih =>
      rw [foldName]
      simp only [List.length_cons]
      omega
  | case3 t ih =>
      rw [foldName]
      simp only [List.length_cons]
      omega
  | case4 a t h1 h2 ih =>
      rw [foldName]
      · simpa using ih
      · exact h1
      · exact h2

theorem foldName_tail {b : UInt8} (hb : isTail b = true) (t : GoString) :
    foldName (b :: t) = b :: foldName t := by
  have hlow : foldByte b = b := foldByte_of_high (le_of_isTail hb)
  refine (foldName_cons (fun u hu => ?_) (fun u hu => ?_)).trans (by rw [hlow])
  · rw [(List.cons.inj hu).1] at hb
    exact absurd hb (by decide)
  · rw [(List.cons.inj hu).1] at hb
    exact absurd hb (by decide)

/-- A character that is not ASCII stays, but for the two runes that fold to ASCII. -/
theorem foldName_high {a : UInt8} (ha : ¬ a < 0x80) (t : GoString) :
    (∃ u, a :: t = [0xC5, 0xBF] ++ u) ∨ (∃ u, a :: t = [0xE2, 0x84, 0xAA] ++ u)
      ∨ foldName (a :: t) = a :: foldName t := by
  by_cases hS : ∃ u, a :: t = [0xC5, 0xBF] ++ u
  · exact .inl hS
  by_cases hK : ∃ u, a :: t = [0xE2, 0x84, 0xAA] ++ u
  · exact .inr (.inl hK)
  refine .inr (.inr ?_)
  rw [foldName_cons (not_exists.mp hS) (not_exists.mp hK), foldByte_of_high (UInt8.not_lt.mp ha)]

/-- A name whose folded form has no letter was not changed by the folding. -/
theorem foldName_of_caseless {r : GoString} (h : ∀ b ∈ foldName r, Caseless b) :
    foldName r = r := by
  induction r using foldName.induct with
  | case1 => rfl
  | case2 t ih => exact absurd (h 0x53 (by simp [foldName])) (by decide)
  | case3 t ih => exact absurd (h 0x4B (by simp [foldName])) (by decide)
  | case4 a t h1 h2 ih =>
      have hcons : foldName (a :: t) = foldByte a :: foldName t :=
        foldName_cons (fun u hu => h1 u (List.cons.inj hu).1 (List.cons.inj hu).2)
          (fun u hu => h2 u (List.cons.inj hu).1 (List.cons.inj hu).2)
      rw [hcons] at h ⊢
      rw [ih fun b hb => h b (List.mem_cons_of_mem _ hb),
        (foldByte_facts a).2.2.2.2 (h _ List.mem_cons_self)]

theorem runes_longS (u : GoString) : runes ([0xC5, 0xBF] ++ u) = [0xC5, 0xBF] :: runes u :=
  runes_two u (by decide) (by decide)

theorem runes_kelvin (u : GoString) :
    runes ([0xE2, 0x84, 0xAA] ++ u) = [0xE2, 0x84, 0xAA] :: runes u :=
  runes_three u (by decide) (by decide) (by decide)

/-- A longer rune folds to ASCII if it is one of the two, and else keeps its first byte. -/
theorem foldName_piece {p t : GoString} (hp : 1 < p.length) (hhigh : ∀ b ∈ p, 0x80 ≤ b)
    (hr : runes (p ++ t) = p :: runes t) :
    p = [0xC5, 0xBF] ∨ p = [0xE2, 0x84, 0xAA]
      ∨ ∃ c, 0x80 ≤ c ∧ (∃ u, foldName (p ++ t) = c :: u) ∧ ∃ u, foldName p = c :: u := by
  obtain ⟨c, p, rfl⟩ := List.exists_cons_of_length_pos (by omega : 0 < p.length)
  have hc : 0x80 ≤ c := hhigh c List.mem_cons_self
  -- the two runes are recognised as pieces
  have hS : ∀ u, c :: p ++ t = [0xC5, 0xBF] ++ u → c :: p = [0xC5, 0xBF] := fun u hu => by
    rw [hu, runes_longS] at hr
    exact (List.cons.inj hr).1.symm
  have hK : ∀ u, c :: p ++ t = [0xE2, 0x84, 0xAA] ++ u → c :: p = [0xE2, 0x84, 0xAA] :=
    fun u hu => by
      rw [hu, runes_kelvin] at hr
      exact (List.cons.inj hr).1.symm
  rcases foldName_high (UInt8.not_lt.mpr hc) (p ++ t) with ⟨u, hu⟩ | ⟨u, hu⟩ | hfold
  · exact .inl (hS u hu)
  · exact .inr (.inl (hK u hu))
  rcases foldName_high (UInt8.not_lt.mpr hc) p with ⟨u, hu⟩ | ⟨u, hu⟩ | hfold'
  · exact .inl (hS (u ++ t) (by rw [hu, List.append_assoc]))
  · exact .inr (.inl (hK (u ++ t) (by rw [hu, List.append_assoc])))
  · exact .inr (.inr ⟨c, hc, ⟨_, hfold⟩, ⟨_, hfold'⟩⟩)

/-! ## Equality under folding -/

section Equal

variable [CaseFold] {s t : GoString}

theorem EqualFold.refl (s : GoString) : EqualFold s s := rfl

theorem EqualFold.symm (h : EqualFold s t) : EqualFold t s := Eq.symm h

theorem EqualFold.trans {u : GoString} (h : EqualFold s t) (h' : EqualFold t u) : EqualFold s u :=
  Eq.trans h h'

/-- **Against an ASCII literal the general relation is the one the program's lookups use.** -/
theorem equalFold_iff {literal : GoString} (hl : ∀ b ∈ literal, b < 0x80) (s : GoString) :
    EqualFold s literal ↔ equalFold s literal = true := by
  have hnil : ∀ {b : UInt8} {l : GoString}, b < 0x80 → foldName (b :: l) ≠ [] := fun hb => by
    rw [foldName_one hb]
    simp
  rw [EqualFold, runes_ascii hl, equalFold, beq_iff_eq]
  induction s using pieces_induct generalizing literal with
  | nil =>
      cases literal with
      | nil => simp [runes_nil, foldName]
      | cons b l => simp [runes_nil, foldName, (hnil (hl b List.mem_cons_self)).symm]
  | ascii a t ha hr ih =>
      cases literal with
      | nil => simp [hr, foldName, hnil ha]
      | cons b l =>
          have hb := hl b List.mem_cons_self
          have ihl : (runes t).map CaseFold.fold = (l.map ([·])).map CaseFold.fold
              ↔ foldName t = foldName l := ih fun c hc => hl c (List.mem_cons_of_mem b hc)
          rw [hr, List.map_cons, List.map_cons, List.map_cons, List.cons.injEq, ihl,
            CaseFold.fold_ascii _ hb, foldName_one ha, foldName_one ha, foldName_one hb,
            foldName_one hb, List.cons.injEq]
          simp [foldName]
  | piece p t hp hhigh hr ih =>
      have hpiece := foldName_piece hp hhigh hr
      cases literal with
      | nil =>
          rw [hr]
          rcases hpiece with rfl | rfl | ⟨c, -, ⟨u, hu⟩, -⟩
          · simp [foldName]
          · simp [foldName]
          · simp [hu, foldName]
      | cons b l =>
          have hb := hl b List.mem_cons_self
          have ihl : (runes t).map CaseFold.fold = (l.map ([·])).map CaseFold.fold
              ↔ foldName t = foldName l := ih fun c hc => hl c (List.mem_cons_of_mem b hc)
          rw [hr, List.map_cons, List.map_cons, List.map_cons, List.cons.injEq, ihl,
            CaseFold.fold_ascii _ hb, foldName_one hb, foldName_one hb]
          rcases hpiece with rfl | rfl | ⟨c, hc, ⟨u, hu⟩, u', hu'⟩
          · simp [foldName]
          · simp [foldName]
          · have hne : c ≠ foldByte b := fun heq =>
              absurd (foldByte_lt hb) (UInt8.not_lt.mpr (heq ▸ hc))
            simp [hu, hu', hne]
  | bad a t ha hr ih =>
      -- U+FFFD folds to no ASCII, and the byte stays as it is
      have hfold : foldName (a :: t) = a :: foldName t := by
        rcases foldName_high ha t with ⟨u, hu⟩ | ⟨u, hu⟩ | hfold
        · rw [hu, runes_longS] at hr
          exact absurd (List.cons.inj hr).1 (by decide)
        · rw [hu, runes_kelvin] at hr
          exact absurd (List.cons.inj hr).1 (by decide)
        · exact hfold
      cases literal with
      | nil => simp [hr, hfold, foldName]
      | cons b l =>
          have hb := hl b List.mem_cons_self
          have hne : a ≠ foldByte b := fun heq => ha (heq ▸ foldByte_lt hb)
          have herr : foldName runeError = [0xEF, 0xBF, 0xBD] := rfl
          rw [hr, List.map_cons, List.map_cons, List.map_cons, List.cons.injEq,
            CaseFold.fold_ascii _ hb, herr, foldName_one hb, foldName_one hb, hfold]
          simp [hne, foldName]

/-- A character without case folds with itself alone. -/
theorem eq_of_fold_caseless {b : UInt8} (hb : b < 0x80) (hc : Caseless b) {r : GoString}
    (h : CaseFold.fold r = CaseFold.fold [b]) : r = [b] := by
  have hfold : foldName [b] = [b] := by
    rw [foldName_one hb, foldByte_of_caseless hc]
    rfl
  have hr := (CaseFold.fold_ascii r hb).mp h
  rw [hfold] at hr
  rw [← foldName_of_caseless (r := r) (by simpa [hr] using hc), hr]

theorem EqualFold.mem (h : EqualFold s t) {b : UInt8} (hb : b < 0x80) (hc : Caseless b)
    (hs : b ∈ s) : b ∈ t := by
  have hm : CaseFold.fold [b] ∈ (runes t).map CaseFold.fold :=
    h ▸ List.mem_map_of_mem ((mem_runes hb s).mpr hs)
  obtain ⟨r, hr, hfold⟩ := List.mem_map.mp hm
  rw [eq_of_fold_caseless hb hc hfold] at hr
  exact (mem_runes hb t).mp hr

theorem EqualFold.head (h : EqualFold s t) {b : UInt8} (hb : b < 0x80) (hc : Caseless b)
    (hs : s.head? = some b) : t.head? = some b := by
  have hm := congrArg List.head? h
  rw [List.head?_map, List.head?_map, (head_runes hb s).mpr hs] at hm
  obtain ⟨r, hr, hfold⟩ := Option.map_eq_some_iff.mp hm.symm
  rw [eq_of_fold_caseless hb hc hfold] at hr
  exact (head_runes hb t).mp hr

theorem EqualFold.ne_nil (h : EqualFold s t) (hs : s ≠ []) : t ≠ [] := by
  rintro rfl
  exact hs (runes_eq_nil (List.map_eq_nil_iff.mp h))

theorem EqualFold.trimmed (h : EqualFold s t) (hs : Trimmed s) : Trimmed t := by
  constructor
  · by_contra hn
    obtain ⟨w, hw, u, rfl⟩ := spaceLen_ne_zero_iff.mp hn
    obtain ⟨hrunes, -, herr⟩ := hw.runes_eq
    have hm : (runes s).map CaseFold.fold = CaseFold.fold w :: (runes u).map CaseFold.fold := by
      rw [h, hrunes, List.map_cons]
    obtain ⟨r, rs, hr, hfold, -⟩ := List.map_eq_cons_iff.mp hm
    rw [CaseFold.fold_space hw hfold] at hr
    exact spaceLen_ne_zero_iff.mpr ⟨w, hw, prefix_of_runes herr hr⟩ hs.1
  · by_contra hn
    obtain ⟨w, hw, u, hu⟩ := lastSpaceLen_ne_zero_iff.mp hn
    obtain ⟨hrunes, htail, herr⟩ := hw.runes_eq
    have ht : t = u.reverse ++ w := by
      rw [← List.reverse_reverse t, ← hu, List.reverse_append, List.reverse_reverse]
    have hm : (runes s).map CaseFold.fold
        = (runes u.reverse).map CaseFold.fold ++ [CaseFold.fold w] := by
      have hw1 : runes w = [w] := by simpa [runes_nil] using hrunes []
      rw [h, ht, runes_append htail, hw1, List.map_append, List.map_singleton]
    obtain ⟨rs, r', hr, -, hmap⟩ := List.map_eq_append_iff.mp hm
    obtain ⟨r, hr', hfold⟩ := List.map_eq_singleton_iff.mp hmap
    rw [hr', CaseFold.fold_space hw hfold] at hr
    obtain ⟨v, rfl⟩ := suffix_of_runes herr hr
    refine lastSpaceLen_ne_zero_iff.mpr ⟨w, hw, v.reverse, ?_⟩ hs.2
    rw [List.reverse_append]

end Equal

theorem IsSpace.caseless {w : GoString} (h : IsSpace w) : ∀ b ∈ w, Caseless b := by
  intro b hb
  rcases h.bytes with h1 | hhigh
  · obtain ⟨a, rfl⟩ := List.length_eq_one_iff.mp h1
    rw [List.mem_singleton.mp hb]
    exact (foldByte_facts a).2.2.1 (isSpace_singleton.mp h)
  · exact (foldByte_facts b).2.1 (hhigh b hb)

/-- White space is not changed by the folding of names. -/
theorem IsSpace.foldName_eq {w : GoString} (h : IsSpace w) : foldName w = w := by
  have hlen := h.2
  cases h.rune with
  | @ascii a hs =>
      rw [foldName_one (isAsciiSpace_lt hs), foldByte_of_caseless ((foldByte_facts a).2.2.1 hs)]
      rfl
  | @two b h2 =>
      simp only [rune2, Bool.and_eq_true] at h2
      rw [foldName_cons (by simp) (by simp), foldName_tail h2.2]
      rfl
  | @three a b c h3 ha =>
      simp only [rune3, Bool.and_eq_true, decide_eq_true_eq] at h3
      rcases foldName_high (UInt8.not_lt.mpr (UInt8.le_trans (by decide) h3.1.1.1.1.1)) [b, c] with
        ⟨u, hu⟩ | ⟨u, hu⟩ | hfold
      · rw [(List.cons.inj hu).1] at h3
        exact absurd h3.1.1.1.1.1 (by decide)
      · cases hu
        exact absurd hlen (by decide)
      · rw [hfold, foldName_tail h3.1.1.1.2, foldName_tail h3.1.1.2]
        rfl

/-- The table of a library that knows no case outside ASCII. -/
@[reducible] def asciiFold : CaseFold where
  fold := foldName
  fold_ascii _ _ := Iff.rfl
  fold_space {w r} hw h := by
    rw [hw.foldName_eq] at h
    have hcase : ∀ b ∈ foldName r, Caseless b := by rw [h]; exact hw.caseless
    rw [← foldName_of_caseless hcase, h]

end Gsnet.Go
