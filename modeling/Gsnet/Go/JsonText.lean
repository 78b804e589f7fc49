import Gsnet.Go.JsonLex

/-!
# The texts of values

A `json.RawMessage` is the text of a value, not the value: it is what stood
between two delimiters of the line it was cut from, and `Marshal` puts it into
the next line compacted. Whether it is still a value there is a question about
texts.

`Spelled` is the grammar the reader follows, white space included. The reader
accepts exactly what it derives, whatever the text is followed by, and
compaction stays inside it.
-/

namespace Gsnet.Go

/-! ## Values -/

/-- White space between tokens. -/
def Spaces (ws : GoString) : Prop := ∀ c ∈ ws, isJsonSpace c = true

/-- What a text may be the text of. -/
inductive Form where
  | value
  /-- The members of an object, through its closing brace. -/
  | members
  /-- The elements of an array, through its closing bracket. -/
  | elements

/--
The grammar of the reader, with the nesting it still allows. A value has no white
space around it; inside, white space stands wherever the reader skips it.
-/
inductive Spelled : Nat → Form → GoString → Prop where
  | string {d : Nat} {k : GoString} : StringBody k → Spelled d .value (0x22 :: (k ++ [0x22]))
  | number {d : Nat} {x : GoString} : x ≠ [] → Scanned scanNumber goesOn x → Spelled d .value x
  | word {d : Nat} {w : GoString} : w ∈ [str "true", str "false", str "null"] →
      Spelled d .value w
  | emptyObject {d : Nat} {ws : GoString} : Spaces ws →
      Spelled (d + 1) .value (0x7B :: (ws ++ [0x7D]))
  | object {d : Nat} {w : GoString} : Spelled d .members w → Spelled (d + 1) .value (0x7B :: w)
  | emptyArray {d : Nat} {ws : GoString} : Spaces ws →
      Spelled (d + 1) .value (0x5B :: (ws ++ [0x5D]))
  | array {d : Nat} {w : GoString} : Spelled d .elements w → Spelled (d + 1) .value (0x5B :: w)
  | lastMember {d : Nat} {ws₁ k ws₂ ws₃ v ws₄ : GoString} : Spaces ws₁ → StringBody k →
      Spaces ws₂ → Spaces ws₃ → Spelled d .value v → Spaces ws₄ →
      Spelled d .members
        (ws₁ ++ 0x22 :: (k ++ 0x22 :: (ws₂ ++ 0x3A :: (ws₃ ++ (v ++ (ws₄ ++ [0x7D]))))))
  | member {d : Nat} {ws₁ k ws₂ ws₃ v ws₄ w : GoString} : Spaces ws₁ → StringBody k →
      Spaces ws₂ → Spaces ws₃ → Spelled d .value v → Spaces ws₄ → Spelled d .members w →
      Spelled d .members
        (ws₁ ++ 0x22 :: (k ++ 0x22 :: (ws₂ ++ 0x3A :: (ws₃ ++ (v ++ (ws₄ ++ 0x2C :: w))))))
  | lastElement {d : Nat} {ws₁ v ws₂ : GoString} : Spaces ws₁ → Spelled d .value v →
      Spaces ws₂ → Spelled d .elements (ws₁ ++ (v ++ (ws₂ ++ [0x5D])))
  | element {d : Nat} {ws₁ v ws₂ w : GoString} : Spaces ws₁ → Spelled d .value v →
      Spaces ws₂ → Spelled d .elements w → Spelled d .elements (ws₁ ++ (v ++ (ws₂ ++ 0x2C :: w)))

/-! ### White space -/

theorem spaces_takeWhile (s : GoString) : Spaces (s.takeWhile isJsonSpace) :=
  fun _ hc => List.mem_takeWhile_imp hc

theorem skipSpace_spaces {ws : GoString} (h : Spaces ws) (s : GoString) :
    skipSpace (ws ++ s) = skipSpace s := List.dropWhile_append_of_pos h

/-- What is skipped, and what is left. -/
theorem exists_spaces (s : GoString) : ∃ ws, Spaces ws ∧ s = ws ++ skipSpace s :=
  ⟨_, spaces_takeWhile s, List.takeWhile_append_dropWhile.symm⟩

theorem expect_spaces {ws : GoString} (h : Spaces ws) {c : UInt8} (hc : isJsonSpace c = false)
    (t : GoString) : expect c (ws ++ c :: t) = some t := by
  unfold expect
  rw [skipSpace_spaces h, skipSpace_cons t hc]
  simp

theorem expect_spaces_ne {ws : GoString} (h : Spaces ws) {a c : UInt8}
    (ha : isJsonSpace a = false) (hne : a ≠ c) (t : GoString) : expect c (ws ++ a :: t) = none := by
  unfold expect
  rw [skipSpace_spaces h, skipSpace_cons t ha]
  simp [hne]

theorem expect_eq_some {c : UInt8} {s t : GoString} (h : expect c s = some t) :
    ∃ ws, Spaces ws ∧ s = ws ++ c :: t := by
  obtain ⟨ws, hws, hs⟩ := exists_spaces s
  unfold expect at h
  cases hsk : skipSpace s with
  | nil => rw [hsk] at h; cases h
  | cons a u =>
      rw [hsk] at h hs
      simp only at h
      split at h
      · rename_i ha
        cases h
        exact ⟨ws, hws, by rw [hs, ha]⟩
      · cases h

theorem parseValue_spaces {ws : GoString} (h : Spaces ws) (fuel d : Nat) (s : GoString) :
    parseValue fuel d (ws ++ s) = parseValue fuel d s := by
  cases fuel with
  | zero => rw [parseValue, parseValue]
  | succ fuel => rw [parseValue, parseValue, skipSpace_spaces h]

/-! ### Heads -/

theorem numeral_facts {c : UInt8} (h : isNumeral c = true) :
    isJsonSpace c = false ∧ c ≠ 0x22 ∧ c ≠ 0x7B ∧ c ≠ 0x5B ∧ c ≠ 0x74 ∧ c ≠ 0x66 ∧ c ≠ 0x6E
      ∧ 0x20 ≤ c ∧ c ≠ 0xE2 ∧ compactByte .between c = [c] := by
  have hall := @forall_byte (fun c => isNumeral c = true → isJsonSpace c = false ∧ c ≠ 0x22
    ∧ c ≠ 0x7B ∧ c ≠ 0x5B ∧ c ≠ 0x74 ∧ c ≠ 0x66 ∧ c ≠ 0x6E ∧ 0x20 ≤ c ∧ c ≠ 0xE2
    ∧ compactByte .between c = [c]) (by decide +kernel)
  exact hall c h

/-- A value begins with something other than white space and the two closing brackets. -/
theorem Spelled.head {d : Nat} {w : GoString} (h : Spelled d .value w) :
    ∃ c t, w = c :: t ∧ isJsonSpace c = false ∧ c ≠ 0x5D := by
  cases h with
  | string _ => exact ⟨_, _, rfl, by decide, by decide⟩
  | emptyObject _ => exact ⟨_, _, rfl, by decide, by decide⟩
  | object _ => exact ⟨_, _, rfl, by decide, by decide⟩
  | emptyArray _ => exact ⟨_, _, rfl, by decide, by decide⟩
  | array _ => exact ⟨_, _, rfl, by decide, by decide⟩
  | word hw =>
      simp only [List.mem_cons, List.not_mem_nil, or_false] at hw
      rcases hw with rfl | rfl | rfl
      · exact ⟨0x74, _, rfl, by decide, by decide⟩
      · exact ⟨0x66, _, rfl, by decide, by decide⟩
      · exact ⟨0x6E, _, rfl, by decide, by decide⟩
  | number hne hx =>
      cases w with
      | nil => exact absurd rfl hne
      | cons c t =>
          have hc := hx.numerals c List.mem_cons_self
          refine ⟨c, t, rfl, (numeral_facts hc).1, ?_⟩
          rintro rfl
          exact absurd hc (by decide)

theorem Spelled.skipSpace {d : Nat} {w : GoString} (h : Spelled d .value w) (r : GoString) :
    Go.skipSpace (w ++ r) = w ++ r := by
  obtain ⟨c, t, rfl, hc, -⟩ := h.head
  exact skipSpace_cons _ hc

/-! ### What is accepted is spelled -/

theorem keyword_eq_some {w s r : GoString} (h : keyword w s = some r) : s = w ++ r := by
  unfold keyword at h
  split at h
  · rename_i hp
    cases h
    obtain ⟨u, rfl⟩ := List.isPrefixOf_iff_prefix.mp hp
    simp
  · cases h

/-- **The reader follows the grammar**: what it consumed is white space and the text of a value. -/
theorem spelled_of_parse (fuel : Nat) : ∀ d s,
    (∀ v r, parseValue fuel d s = some (v, r) →
      ∃ ws w, Spaces ws ∧ Spelled d .value w ∧ s = ws ++ (w ++ r))
    ∧ (∀ fs r, parseMembers fuel d s = some (fs, r) →
      ∃ w, Spelled d .members w ∧ s = w ++ r)
    ∧ (∀ vs r, parseElements fuel d s = some (vs, r) →
      ∃ w, Spelled d .elements w ∧ s = w ++ r) := by
  induction fuel with
  | zero =>
      intro d s
      refine ⟨fun v r h => ?_, fun fs r h => ?_, fun vs r h => ?_⟩
      · rw [parseValue] at h; cases h
      · rw [parseMembers] at h; cases h
      · rw [parseElements] at h; cases h
  | succ fuel ih =>
      intro d s
      refine ⟨fun v r h => ?_, fun fs r h => ?_, fun vs r h => ?_⟩
      · obtain ⟨ws, hws, hs⟩ := exists_spaces s
        rw [parseValue] at h
        cases hsk : skipSpace s with
        | nil => simp only [hsk] at h; cases h
        | cons c t =>
          simp only [hsk] at h
          rw [hsk] at hs
          -- one branch for each way a value begins
          have done : ∀ w, Spelled d .value w → c :: t = w ++ r →
              ∃ ws w, Spaces ws ∧ Spelled d .value w ∧ s = ws ++ (w ++ r) :=
            fun w hw hct => ⟨ws, w, hws, hw, by rw [hs, hct]⟩
          split at h
          · rename_i hc
            subst hc
            obtain ⟨⟨x, r'⟩, hx, heq⟩ := Option.map_eq_some_iff.mp h
            cases heq
            obtain ⟨-, k, hk, rfl⟩ := unquote_eq_some hx
            exact done _ (.string hk) (by simp)
          split at h
          · rename_i hc
            subst hc
            cases d with
            | zero => simp at h
            | succ d =>
              rw [if_neg (by omega)] at h
              cases hex : expect 0x7D t with
              | some r' =>
                  simp only [hex] at h
                  cases h
                  obtain ⟨ws', hws', rfl⟩ := expect_eq_some hex
                  exact done _ (.emptyObject hws') (by simp)
              | none =>
                  simp only [hex] at h
                  obtain ⟨⟨fs, r'⟩, hm, heq⟩ := Option.map_eq_some_iff.mp h
                  cases heq
                  obtain ⟨w, hw, rfl⟩ := (ih d t).2.1 fs _ hm
                  exact done _ (.object hw) rfl
          split at h
          · rename_i hc
            subst hc
            cases d with
            | zero => simp at h
            | succ d =>
              rw [if_neg (by omega)] at h
              cases hex : expect 0x5D t with
              | some r' =>
                  simp only [hex] at h
                  cases h
                  obtain ⟨ws', hws', rfl⟩ := expect_eq_some hex
                  exact done _ (.emptyArray hws') (by simp)
              | none =>
                  simp only [hex] at h
                  obtain ⟨⟨vs, r'⟩, hm, heq⟩ := Option.map_eq_some_iff.mp h
                  cases heq
                  obtain ⟨w, hw, rfl⟩ := (ih d t).2.2 vs _ hm
                  exact done _ (.array hw) rfl
          split at h
          · obtain ⟨r', hk, heq⟩ := Option.map_eq_some_iff.mp h
            cases heq
            exact done _ (.word (by simp)) (keyword_eq_some hk)
          split at h
          · obtain ⟨r', hk, heq⟩ := Option.map_eq_some_iff.mp h
            cases heq
            exact done _ (.word (by simp)) (keyword_eq_some hk)
          split at h
          · obtain ⟨r', hk, heq⟩ := Option.map_eq_some_iff.mp h
            cases heq
            exact done _ (.word (by simp)) (keyword_eq_some hk)
          · obtain ⟨⟨x, r'⟩, hx, heq⟩ := Option.map_eq_some_iff.mp h
            cases heq
            obtain ⟨hct, hne, hx⟩ := scanNumber_eq_some hx
            exact done _ (.number hne hx) hct
      · rw [parseMembers] at h
        obtain ⟨s₁, h₁, g₁⟩ := Option.bind_eq_some_iff.mp h
        obtain ⟨⟨k, s₂⟩, h₂, g₂⟩ := Option.bind_eq_some_iff.mp g₁
        obtain ⟨s₃, h₃, g₃⟩ := Option.bind_eq_some_iff.mp g₂
        obtain ⟨⟨v, s₄⟩, h₄, g₄⟩ := Option.bind_eq_some_iff.mp g₃
        obtain ⟨ws₁, hws₁, rfl⟩ := expect_eq_some h₁
        obtain ⟨-, k, hk, rfl⟩ := unquote_eq_some h₂
        obtain ⟨ws₂, hws₂, rfl⟩ := expect_eq_some h₃
        obtain ⟨ws₃, w, hws₃, hw, rfl⟩ := (ih d s₃).1 v s₄ h₄
        simp only at g₄
        cases hex : expect 0x7D s₄ with
        | some r' =>
            simp only [hex] at g₄
            cases g₄
            obtain ⟨ws₄, hws₄, rfl⟩ := expect_eq_some hex
            exact ⟨_, .lastMember hws₁ hk hws₂ hws₃ hw hws₄, by simp⟩
        | none =>
            simp only [hex] at g₄
            obtain ⟨s₅, h₅, g₅⟩ := Option.bind_eq_some_iff.mp g₄
            obtain ⟨⟨fs', r'⟩, h₆, g₆⟩ := Option.bind_eq_some_iff.mp g₅
            cases g₆
            obtain ⟨ws₄, hws₄, rfl⟩ := expect_eq_some h₅
            obtain ⟨w', hw', rfl⟩ := (ih d s₅).2.1 fs' _ h₆
            exact ⟨_, .member hws₁ hk hws₂ hws₃ hw hws₄ hw', by simp⟩
      · rw [parseElements] at h
        obtain ⟨⟨v, s₁⟩, h₁, g₁⟩ := Option.bind_eq_some_iff.mp h
        obtain ⟨ws₁, w, hws₁, hw, rfl⟩ := (ih d s).1 v s₁ h₁
        simp only at g₁
        cases hex : expect 0x5D s₁ with
        | some r' =>
            simp only [hex] at g₁
            cases g₁
            obtain ⟨ws₂, hws₂, rfl⟩ := expect_eq_some hex
            exact ⟨_, .lastElement hws₁ hw hws₂, by simp⟩
        | none =>
            simp only [hex] at g₁
            obtain ⟨s₂, h₂, g₂⟩ := Option.bind_eq_some_iff.mp g₁
            obtain ⟨⟨vs', r'⟩, h₃, g₃⟩ := Option.bind_eq_some_iff.mp g₂
            cases g₃
            obtain ⟨ws₂, hws₂, rfl⟩ := expect_eq_some h₂
            obtain ⟨w', hw', rfl⟩ := (ih d s₂).2.2 vs' _ h₃
            exact ⟨_, .element hws₁ hw hws₂ hw', by simp⟩

/-! ### What is spelled is accepted -/

/-- What the reader makes of a text of a given form, whatever follows it. -/
def Accepted (d : Nat) (w : GoString) : Form → Prop
  | .value => ∀ fuel r, w.length < fuel → Avoids goesOn r →
      ∃ v, parseValue fuel d (w ++ r) = some (v, r)
  | .members => ∀ fuel r, w.length < fuel → ∃ fs, parseMembers fuel d (w ++ r) = some (fs, r)
  | .elements => ∀ fuel r, w.length < fuel → ∃ vs, parseElements fuel d (w ++ r) = some (vs, r)

theorem avoids_spaces {ws : GoString} (h : Spaces ws) {c : UInt8} (hc : goesOn c = false)
    (t : GoString) : Avoids goesOn (ws ++ c :: t) := by
  cases ws with
  | nil => rintro a ⟨⟩; exact hc
  | cons a ws =>
      rintro b ⟨⟩
      have hall := @forall_byte (fun c => isJsonSpace c = true → goesOn c = false)
        (by decide +kernel)
      exact hall a (h a List.mem_cons_self)

theorem Spelled.members_head {d : Nat} {w : GoString} (h : Spelled d .members w) :
    ∃ ws t, Spaces ws ∧ w = ws ++ 0x22 :: t := by
  cases h with
  | lastMember h₁ _ _ _ _ _ => exact ⟨_, _, h₁, rfl⟩
  | member h₁ _ _ _ _ _ _ => exact ⟨_, _, h₁, rfl⟩

theorem Spelled.elements_head {d : Nat} {w : GoString} (h : Spelled d .elements w) :
    ∃ ws c t, Spaces ws ∧ w = ws ++ c :: t ∧ isJsonSpace c = false ∧ c ≠ 0x5D := by
  cases h with
  | lastElement h₁ hv _ =>
      obtain ⟨c, t, rfl, hc, hne⟩ := hv.head
      exact ⟨_, c, _, h₁, rfl, hc, hne⟩
  | element h₁ hv _ _ =>
      obtain ⟨c, t, rfl, hc, hne⟩ := hv.head
      exact ⟨_, c, _, h₁, rfl, hc, hne⟩

/-- **Whatever is spelled is accepted**, up to its own end. -/
theorem Spelled.accepted {d : Nat} {f : Form} {w : GoString} (h : Spelled d f w) :
    Accepted d w f := by
  induction h with
  | @string d k hk =>
      rintro (_ | fuel) r hlt _
      · exact absurd hlt (by omega)
      obtain ⟨x, hx⟩ := hk.unquote r
      refine ⟨.str x, ?_⟩
      rw [List.cons_append, List.append_assoc, parseValue, skipSpace_cons _ (by decide)]
      simp only [if_pos, List.singleton_append, hx]
      rfl
  | @number d x hne hx =>
      rintro (_ | fuel) r hlt hr
      · exact absurd hlt (by omega)
      cases x with
      | nil => exact absurd rfl hne
      | cons c t =>
          obtain ⟨hsp, h1, h2, h3, h4, h5, h6, -⟩ :=
            numeral_facts (hx.numerals c List.mem_cons_self)
          have hscan := hx.again r hr
          refine ⟨.num (c :: t), ?_⟩
          rw [List.cons_append] at hscan ⊢
          rw [parseValue, skipSpace_cons _ hsp]
          simp only [if_neg h1, if_neg h2, if_neg h3, if_neg h4, if_neg h5, if_neg h6, hscan]
          rfl
  | @word d w hw =>
      rintro (_ | fuel) r hlt _
      · exact absurd hlt (by omega)
      simp only [List.mem_cons, List.not_mem_nil, or_false] at hw
      rcases hw with rfl | rfl | rfl
      · exact ⟨.bool true, by rw [parseValue.eq_def]; rfl⟩
      · exact ⟨.bool false, by rw [parseValue.eq_def]; rfl⟩
      · exact ⟨.null, by rw [parseValue.eq_def]; rfl⟩
  | @emptyObject d ws hws =>
      rintro (_ | fuel) r hlt _
      · exact absurd hlt (by omega)
      refine ⟨.obj [], ?_⟩
      rw [List.cons_append, List.append_assoc, parseValue, skipSpace_cons _ (by decide)]
      simp only [if_neg (by decide : ¬ (0x7B : UInt8) = 0x22), if_pos, List.singleton_append,
        expect_spaces hws (by decide : isJsonSpace 0x7D = false)]
      rw [if_neg (by omega)]
  | @emptyArray d ws hws =>
      rintro (_ | fuel) r hlt _
      · exact absurd hlt (by omega)
      refine ⟨.arr [], ?_⟩
      rw [List.cons_append, List.append_assoc, parseValue, skipSpace_cons _ (by decide)]
      simp only [if_neg (by decide : ¬ (0x5B : UInt8) = 0x22),
        if_neg (by decide : ¬ (0x5B : UInt8) = 0x7B), if_pos, List.singleton_append,
        expect_spaces hws (by decide : isJsonSpace 0x5D = false)]
      rw [if_neg (by omega)]
  | @object d w hw ih =>
      rintro (_ | fuel) r hlt _
      · exact absurd hlt (by omega)
      obtain ⟨fs, hfs⟩ := ih fuel r (by simpa using hlt)
      have hno : expect 0x7D (w ++ r) = none := by
        obtain ⟨ws, t, hws, rfl⟩ := hw.members_head
        rw [List.append_assoc]
        exact expect_spaces_ne hws (by decide) (by decide) _
      refine ⟨.obj fs, ?_⟩
      rw [List.cons_append, parseValue, skipSpace_cons _ (by decide)]
      simp only [if_neg (by decide : ¬ (0x7B : UInt8) = 0x22), if_pos, hno, Nat.add_sub_cancel,
        hfs]
      rw [if_neg (by omega)]
      rfl
  | @array d w hw ih =>
      rintro (_ | fuel) r hlt _
      · exact absurd hlt (by omega)
      obtain ⟨vs, hvs⟩ := ih fuel r (by simpa using hlt)
      have hno : expect 0x5D (w ++ r) = none := by
        obtain ⟨ws, c, t, hws, rfl, hc, hne⟩ := hw.elements_head
        rw [List.append_assoc]
        exact expect_spaces_ne hws hc hne _
      refine ⟨.arr vs, ?_⟩
      rw [List.cons_append, parseValue, skipSpace_cons _ (by decide)]
      simp only [if_neg (by decide : ¬ (0x5B : UInt8) = 0x22),
        if_neg (by decide : ¬ (0x5B : UInt8) = 0x7B), if_pos, hno, Nat.add_sub_cancel, hvs]
      rw [if_neg (by omega)]
      rfl
  | @lastMember d ws₁ k ws₂ ws₃ v ws₄ h₁ hk h₂ h₃ hv h₄ ih =>
      rintro (_ | fuel) r hlt
      · exact absurd hlt (by omega)
      obtain ⟨x, hx⟩ := hk.unquote (ws₂ ++ 0x3A :: (ws₃ ++ (v ++ (ws₄ ++ 0x7D :: r))))
      obtain ⟨y, hy⟩ := ih fuel (ws₄ ++ 0x7D :: r) (by simp at hlt; omega)
        (avoids_spaces h₄ (by decide) r)
      refine ⟨[(x, y)], ?_⟩
      simp only [List.append_assoc, List.cons_append, List.nil_append]
      rw [parseMembers, expect_spaces h₁ (by decide)]
      simp only [Option.bind_eq_bind, Option.bind_some, hx]
      rw [expect_spaces h₂ (by decide)]
      simp only [Option.bind_some, parseValue_spaces h₃, hy]
      rw [expect_spaces h₄ (by decide)]
  | @member d ws₁ k ws₂ ws₃ v ws₄ w h₁ hk h₂ h₃ hv h₄ hw ih ihw =>
      rintro (_ | fuel) r hlt
      · exact absurd hlt (by omega)
      obtain ⟨x, hx⟩ := hk.unquote (ws₂ ++ 0x3A :: (ws₃ ++ (v ++ (ws₄ ++ 0x2C :: (w ++ r)))))
      obtain ⟨y, hy⟩ := ih fuel (ws₄ ++ 0x2C :: (w ++ r)) (by simp at hlt; omega)
        (avoids_spaces h₄ (by decide) _)
      obtain ⟨fs, hfs⟩ := ihw fuel r (by simp at hlt; omega)
      refine ⟨(x, y) :: fs, ?_⟩
      simp only [List.append_assoc, List.cons_append]
      rw [parseMembers, expect_spaces h₁ (by decide)]
      simp only [Option.bind_eq_bind, Option.bind_some, hx]
      rw [expect_spaces h₂ (by decide)]
      simp only [Option.bind_some, parseValue_spaces h₃, hy]
      rw [expect_spaces_ne h₄ (by decide) (by decide), expect_spaces h₄ (by decide)]
      simp only [Option.bind_some, hfs]
  | @lastElement d ws₁ v ws₂ h₁ hv h₂ ih =>
      rintro (_ | fuel) r hlt
      · exact absurd hlt (by omega)
      obtain ⟨y, hy⟩ := ih fuel (ws₂ ++ 0x5D :: r) (by simp at hlt; omega)
        (avoids_spaces h₂ (by decide) r)
      refine ⟨[y], ?_⟩
      simp only [List.append_assoc, List.cons_append, List.nil_append]
      rw [parseElements]
      simp only [Option.bind_eq_bind, parseValue_spaces h₁, hy, Option.bind_some]
      rw [expect_spaces h₂ (by decide)]
  | @element d ws₁ v ws₂ w h₁ hv h₂ hw ih ihw =>
      rintro (_ | fuel) r hlt
      · exact absurd hlt (by omega)
      obtain ⟨y, hy⟩ := ih fuel (ws₂ ++ 0x2C :: (w ++ r)) (by simp at hlt; omega)
        (avoids_spaces h₂ (by decide) _)
      obtain ⟨vs, hvs⟩ := ihw fuel r (by simp at hlt; omega)
      refine ⟨y :: vs, ?_⟩
      simp only [List.append_assoc, List.cons_append]
      rw [parseElements]
      simp only [Option.bind_eq_bind, parseValue_spaces h₁, hy, Option.bind_some]
      rw [expect_spaces_ne h₂ (by decide) (by decide), expect_spaces h₂ (by decide)]
      simp only [Option.bind_some, hvs]

/-! ### Compacting a value -/

theorem compactFrom_spaces {ws : GoString} (h : Spaces ws) (t : GoString) :
    compactFrom .between (ws ++ t) = compactFrom .between t := by
  induction ws with
  | nil => rfl
  | cons c ws ih =>
      have hall := @forall_byte (fun c => isJsonSpace c = true → c ≠ 0xE2
        ∧ compactByte .between c = [] ∧ ScanState.next .between c = .between) (by decide +kernel)
      obtain ⟨he2, hb, hn⟩ := hall c (h c List.mem_cons_self)
      rw [List.cons_append, compactFrom_cons _ he2, hb, hn, List.nil_append,
        ih fun a ha => h a (List.mem_cons_of_mem _ ha)]

/-- Every byte of the token is copied. -/
theorem compactFrom_token {w : GoString} (t : GoString)
    (h : ∀ c ∈ w, c ≠ 0x22 ∧ c ≠ 0xE2 ∧ compactByte .between c = [c]) :
    compactFrom .between (w ++ t) = w ++ compactFrom .between t := by
  induction w with
  | nil => rfl
  | cons c w ih =>
      obtain ⟨h22, he2, hb⟩ := h c List.mem_cons_self
      rw [List.cons_append, compactFrom_cons _ he2, hb]
      simp only [ScanState.next, if_neg h22, List.cons_append, List.nil_append]
      rw [ih fun a ha => h a (List.mem_cons_of_mem _ ha)]

theorem compactFrom_delimiter {c : UInt8} (t : GoString)
    (hc : c ∈ [0x7B, 0x7D, 0x5B, 0x5D, 0x2C, 0x3A]) :
    compactFrom .between (c :: t) = c :: compactFrom .between t := by
  have hall : ∀ c ∈ ([0x7B, 0x7D, 0x5B, 0x5D, 0x2C, 0x3A] : GoString), c ≠ 0x22 ∧ c ≠ 0xE2
      ∧ compactByte .between c = [c] := by decide +kernel
  exact @compactFrom_token [c] t fun a ha => by
    rw [List.mem_singleton.mp ha]
    exact hall c hc

theorem compactFrom_open (t : GoString) :
    compactFrom .between (0x22 :: t) = 0x22 :: compactFrom .inString t :=
  compactFrom_cons t (by decide)

theorem spaces_nil : Spaces [] := fun _ h => absurd h List.not_mem_nil

/-- **A compacted value is a value**, on one line, whatever follows it. -/
theorem Spelled.compact {d : Nat} {f : Form} {w : GoString} (h : Spelled d f w) :
    ∃ cw, Spelled d f cw ∧ Printable cw
      ∧ ∀ t, compactFrom .between (w ++ t) = cw ++ compactFrom .between t := by
  induction h with
  | string hk =>
      obtain ⟨ck, hck, hp, heq⟩ := hk.compact
      refine ⟨_, .string hck, by simp [hp], fun t => ?_⟩
      simp only [List.cons_append, List.append_assoc, List.nil_append]
      rw [compactFrom_open, heq]
  | @number d x hne hx =>
      have hfacts := fun c hc => numeral_facts (hx.numerals c hc)
      refine ⟨x, .number hne hx, fun c hc => (hfacts c hc).2.2.2.2.2.2.2.1, fun t => ?_⟩
      refine compactFrom_token t fun c hc => ?_
      obtain ⟨-, h22, -, -, -, -, -, -, he2, hb⟩ := hfacts c hc
      exact ⟨h22, he2, hb⟩
  | @word d w hw =>
      have hall : ∀ w ∈ [str "true", str "false", str "null"], ∀ c ∈ w, 0x20 ≤ c
          ∧ c ≠ 0x22 ∧ c ≠ 0xE2 ∧ compactByte .between c = [c] := by decide +kernel
      exact ⟨w, .word hw, fun c hc => (hall w hw c hc).1,
        fun t => compactFrom_token t fun c hc => (hall w hw c hc).2⟩
  | emptyObject hws =>
      refine ⟨_, .emptyObject spaces_nil, by simp, fun t => ?_⟩
      simp only [List.cons_append, List.append_assoc, List.nil_append]
      rw [compactFrom_delimiter _ (by simp), compactFrom_spaces hws,
        compactFrom_delimiter _ (by simp)]
  | emptyArray hws =>
      refine ⟨_, .emptyArray spaces_nil, by simp, fun t => ?_⟩
      simp only [List.cons_append, List.append_assoc, List.nil_append]
      rw [compactFrom_delimiter _ (by simp), compactFrom_spaces hws,
        compactFrom_delimiter _ (by simp)]
  | object _ ih =>
      obtain ⟨cw, hcw, hp, heq⟩ := ih
      refine ⟨_, .object hcw, by simp [hp], fun t => ?_⟩
      rw [List.cons_append, compactFrom_delimiter _ (by simp), heq, List.cons_append]
  | array _ ih =>
      obtain ⟨cw, hcw, hp, heq⟩ := ih
      refine ⟨_, .array hcw, by simp [hp], fun t => ?_⟩
      rw [List.cons_append, compactFrom_delimiter _ (by simp), heq, List.cons_append]
  | lastMember h₁ hk h₂ h₃ _ h₄ ih =>
      obtain ⟨ck, hck, hpk, hek⟩ := hk.compact
      obtain ⟨cv, hcv, hpv, hev⟩ := ih
      refine ⟨_, .lastMember spaces_nil hck spaces_nil spaces_nil hcv spaces_nil,
        by simp [hpk, hpv], fun t => ?_⟩
      simp only [List.cons_append, List.append_assoc, List.nil_append]
      rw [compactFrom_spaces h₁, compactFrom_open, hek, compactFrom_spaces h₂,
        compactFrom_delimiter _ (by simp), compactFrom_spaces h₃, hev, compactFrom_spaces h₄,
        compactFrom_delimiter _ (by simp)]
  | member h₁ hk h₂ h₃ _ h₄ _ ih ihw =>
      obtain ⟨ck, hck, hpk, hek⟩ := hk.compact
      obtain ⟨cv, hcv, hpv, hev⟩ := ih
      obtain ⟨cw, hcw, hpw, hew⟩ := ihw
      refine ⟨_, .member spaces_nil hck spaces_nil spaces_nil hcv spaces_nil hcw,
        by simp [hpk, hpv, hpw], fun t => ?_⟩
      simp only [List.cons_append, List.append_assoc, List.nil_append]
      rw [compactFrom_spaces h₁, compactFrom_open, hek, compactFrom_spaces h₂,
        compactFrom_delimiter _ (by simp), compactFrom_spaces h₃, hev, compactFrom_spaces h₄,
        compactFrom_delimiter _ (by simp), hew]
  | lastElement h₁ _ h₂ ih =>
      obtain ⟨cv, hcv, hpv, hev⟩ := ih
      refine ⟨_, .lastElement spaces_nil hcv spaces_nil, by simp [hpv], fun t => ?_⟩
      simp only [List.cons_append, List.append_assoc, List.nil_append]
      rw [compactFrom_spaces h₁, hev, compactFrom_spaces h₂, compactFrom_delimiter _ (by simp)]
  | element h₁ _ h₂ _ ih ihw =>
      obtain ⟨cv, hcv, hpv, hev⟩ := ih
      obtain ⟨cw, hcw, hpw, hew⟩ := ihw
      refine ⟨_, .element spaces_nil hcv spaces_nil hcw, by simp [hpv, hpw], fun t => ?_⟩
      simp only [List.cons_append, List.append_assoc, List.nil_append]
      rw [compactFrom_spaces h₁, hev, compactFrom_spaces h₂, compactFrom_delimiter _ (by simp),
        hew]

/-- More nesting allowed is no obstacle. -/
theorem Spelled.mono {d : Nat} {f : Form} {w : GoString} (h : Spelled d f w) :
    ∀ {d' : Nat}, d ≤ d' → Spelled d' f w := by
  induction h with
  | string hk => exact fun _ => .string hk
  | number hne hx => exact fun _ => .number hne hx
  | word hw => exact fun _ => .word hw
  | emptyObject hws =>
      rintro (_ | d') hd
      exacts [absurd hd (by omega), .emptyObject hws]
  | emptyArray hws =>
      rintro (_ | d') hd
      exacts [absurd hd (by omega), .emptyArray hws]
  | object _ ih =>
      rintro (_ | d') hd
      exacts [absurd hd (by omega), .object (ih (by omega))]
  | array _ ih =>
      rintro (_ | d') hd
      exacts [absurd hd (by omega), .array (ih (by omega))]
  | lastMember h₁ hk h₂ h₃ _ h₄ ih => exact fun hd => .lastMember h₁ hk h₂ h₃ (ih hd) h₄
  | member h₁ hk h₂ h₃ _ h₄ _ ih ihw =>
      exact fun hd => .member h₁ hk h₂ h₃ (ih hd) h₄ (ihw hd)
  | lastElement h₁ _ h₂ ih => exact fun hd => .lastElement h₁ (ih hd) h₂
  | element h₁ _ h₂ _ ih ihw => exact fun hd => .element h₁ (ih hd) h₂ (ihw hd)

theorem Spelled.parse {d : Nat} {w : GoString} (h : Spelled d .value w)
    (hd : d ≤ maxNestingDepth) : ∃ v, Go.parse w = some v := by
  obtain ⟨v, hv⟩ := (h.mono hd).accepted (w.length + 1) [] (by omega)
    (fun c hc => absurd hc (by simp))
  rw [List.append_nil] at hv
  refine ⟨v, ?_⟩
  unfold Go.parse
  rw [hv]
  rfl

/-- **`appendCompact` accepts the text of a value**, and makes one of it that is on one line. -/
theorem Spelled.compact_value {d : Nat} {w : GoString} (h : Spelled d .value w)
    (hd : d ≤ maxNestingDepth) :
    Go.compact w = some (compactFrom .between w) ∧ Spelled d .value (compactFrom .between w)
      ∧ Printable (compactFrom .between w) := by
  obtain ⟨v, hv⟩ := h.parse hd
  obtain ⟨cw, hcw, hp, heq⟩ := h.compact
  have hw : compactFrom .between w = cw := by
    have := heq []
    rwa [List.append_nil, compactFrom, List.append_nil] at this
  rw [hw]
  refine ⟨?_, hcw, hp⟩
  unfold Go.compact
  rw [hv, hw]
  rfl

/-- **Whatever `appendCompact` makes of a source is on one line.** -/
theorem printable_compact {src text : GoString} (h : Go.compact src = some text) :
    Printable text := by
  unfold Go.compact at h
  split at h
  · rename_i hsome
    obtain ⟨v, hv⟩ := Option.isSome_iff_exists.mp hsome
    obtain ⟨⟨v', r⟩, hr, hrest⟩ := Option.bind_eq_some_iff.mp hv
    obtain ⟨ws, w, hws, hw, rfl⟩ := (spelled_of_parse _ _ _).1 _ _ hr
    obtain ⟨cw, -, hp, heq⟩ := hw.compact
    -- only white space follows the value
    obtain ⟨ws', hws', hend⟩ := exists_spaces r
    have hskip : skipSpace r = [] := by
      by_contra hne
      exact absurd ((if_neg hne).symm.trans hrest) (by simp)
    rw [hskip, List.append_nil] at hend
    have hafter : compactFrom .between r = [] := by
      have := compactFrom_spaces hws' []
      rwa [List.append_nil, ← hend] at this
    cases h
    rw [compactFrom_spaces hws, heq, hafter, List.append_nil]
    exact hp
  · cases h

/-! ## Raw messages

Decoding into a struct with a `json.RawMessage` field hands that field the bytes
of the value as they stood, from its first to its last. -/

/-- The members of an object, each with its value and the text of it. -/
def rawMembers : Nat → Nat → GoString → Option (List (GoString × Json × GoString) × GoString)
  | 0, _, _ => none
  | fuel + 1, depth, s => do
    let s ← expect 0x22 s
    let (k, s) ← unquote s
    let s ← expect 0x3A s
    let (v, r) ← parseValue (s.length + 1) depth s
    let raw := (skipSpace s).take ((skipSpace s).length - r.length)
    match expect 0x7D r with
    | some r => some ([(k, v, raw)], r)
    | none => do
      let s ← expect 0x2C r
      let (fs, r) ← rawMembers fuel depth s
      some ((k, v, raw) :: fs, r)

/-- A whole text decoded into a struct: its members, none of them for `null`. -/
def parseRaw (s : GoString) : Option (List (GoString × Json × GoString)) :=
  match skipSpace s with
  | [] => none
  | c :: t =>
    if c = 0x7B then
      match expect 0x7D t with
      | some r => if skipSpace r = [] then some [] else none
      | none => do
        let (fs, r) ← rawMembers (t.length + 1) (maxNestingDepth - 1) t
        if skipSpace r = [] then some fs else none
    else match parse s with
      | some .null => some []
      | _ => none

/-- A string among the values of a member is valid, and the text is that of a value. -/
structure RawValue (d : Nat) (v : Json) (raw : GoString) : Prop where
  spelled : Spelled d .value raw
  valid : ∀ s, v = .str s → validUTF8 s = true

theorem rawValue_of_parse {fuel d : Nat} {s r : GoString} {v : Json}
    (h : parseValue fuel d s = some (v, r)) :
    RawValue d v ((skipSpace s).take ((skipSpace s).length - r.length)) := by
  obtain ⟨ws, w, hws, hw, hs⟩ := (spelled_of_parse fuel d s).1 v r h
  have hraw : (skipSpace s).take ((skipSpace s).length - r.length) = w := by
    rw [hs, skipSpace_spaces hws, hw.skipSpace]
    simp
  refine ⟨by rwa [hraw], ?_⟩
  rintro x rfl
  -- only the first branch of the reader makes a string
  cases fuel with
  | zero => rw [parseValue] at h; cases h
  | succ fuel =>
    rw [parseValue] at h
    cases hsk : skipSpace s with
    | nil => simp only [hsk] at h; cases h
    | cons c t =>
      simp only [hsk] at h
      split at h
      · obtain ⟨⟨y, r'⟩, hy, heq⟩ := Option.map_eq_some_iff.mp h
        cases heq
        exact (unquote_eq_some hy).1
      split at h
      · split at h
        · cases h
        · split at h
          · cases h
          · obtain ⟨_, _, heq⟩ := Option.map_eq_some_iff.mp h
            cases heq
      split at h
      · split at h
        · cases h
        · split at h
          · cases h
          · obtain ⟨_, _, heq⟩ := Option.map_eq_some_iff.mp h
            cases heq
      split at h
      · obtain ⟨_, _, heq⟩ := Option.map_eq_some_iff.mp h
        cases heq
      split at h
      · obtain ⟨_, _, heq⟩ := Option.map_eq_some_iff.mp h
        cases heq
      split at h
      · obtain ⟨_, _, heq⟩ := Option.map_eq_some_iff.mp h
        cases heq
      · obtain ⟨_, _, heq⟩ := Option.map_eq_some_iff.mp h
        cases heq

theorem rawMembers_values {fuel d : Nat} {s r : GoString}
    {fs : List (GoString × Json × GoString)} (h : rawMembers fuel d s = some (fs, r)) :
    ∀ f ∈ fs, RawValue d f.2.1 f.2.2 := by
  induction fuel generalizing s fs with
  | zero => cases h
  | succ fuel ih =>
      rw [rawMembers] at h
      obtain ⟨s₁, -, h⟩ := Option.bind_eq_some_iff.mp h
      obtain ⟨⟨k, s₂⟩, -, h⟩ := Option.bind_eq_some_iff.mp h
      obtain ⟨s₃, -, h⟩ := Option.bind_eq_some_iff.mp h
      obtain ⟨⟨v, s₄⟩, hv, h⟩ := Option.bind_eq_some_iff.mp h
      simp only at h
      cases hex : expect 0x7D s₄ with
      | some r' =>
          simp only [hex] at h
          cases h
          rintro f (_ | ⟨_, ⟨⟩⟩)
          exact rawValue_of_parse hv
      | none =>
          simp only [hex] at h
          obtain ⟨s₅, -, h⟩ := Option.bind_eq_some_iff.mp h
          obtain ⟨⟨fs', r'⟩, hrec, h⟩ := Option.bind_eq_some_iff.mp h
          cases h
          rintro f (_ | ⟨_, hf⟩)
          · exact rawValue_of_parse hv
          · exact ih hrec f hf

/-- **Every member that is decoded has the text of a value.** -/
theorem parseRaw_values {s : GoString} {fs : List (GoString × Json × GoString)}
    (h : parseRaw s = some fs) : ∀ f ∈ fs, RawValue (maxNestingDepth - 1) f.2.1 f.2.2 := by
  unfold parseRaw at h
  split at h
  · cases h
  split at h
  · split at h
    · split at h
      · cases h
        exact fun f hf => absurd hf List.not_mem_nil
      · cases h
    · obtain ⟨⟨fs', r⟩, hm, h⟩ := Option.bind_eq_some_iff.mp h
      simp only at h
      split at h
      · cases h
        exact rawMembers_values hm
      · cases h
  · split at h
    · cases h
      exact fun f hf => absurd hf List.not_mem_nil
    · cases h

/-! ### What was written -/

/--
A member's text: it begins with its value, and up to the delimiter after it a
value is read of which `P` holds.
-/
structure ReadsRaw (d : Nat) (txt : GoString) (P : Json → Prop) : Prop where
  head : ∀ r, skipSpace (txt ++ r) = txt ++ r
  value : ∀ fuel c rest, c = 0x2C ∨ c = 0x7D → txt.length < fuel →
    ∃ v, P v ∧ parseValue fuel d (txt ++ c :: rest) = some (v, c :: rest)

theorem Reads.raw {txt : GoString} {v : Json} (h : Reads txt v) (d : Nat)
    (hhead : ∃ c t, txt = c :: t ∧ isJsonSpace c = false) : ReadsRaw d txt (· = v) := by
  obtain ⟨c, t, rfl, hc⟩ := hhead
  refine ⟨fun r => skipSpace_cons _ hc, fun fuel a rest ha hlt => ⟨v, rfl, ?_⟩⟩
  obtain ⟨fuel, rfl⟩ : ∃ n, fuel = n + 1 := ⟨fuel - 1, by omega⟩
  exact h fuel d a rest ha

theorem readsRaw_quote (d : Nat) (s : GoString) :
    ReadsRaw d (quote s) (· = .str (toValidUTF8 s)) :=
  (reads_quote s).raw d ⟨_, _, rfl, by decide⟩

theorem readsRaw_formatInt (d : Nat) (i : Int64) :
    ReadsRaw d (formatInt i) (· = .num (formatInt i)) := by
  refine (reads_formatInt i).raw d ?_
  obtain ⟨c, t, h, hc⟩ := formatInt_head i
  refine ⟨c, t, h, (numeral_facts ?_).1⟩
  rcases hc with hc | rfl
  · exact isNumeral_of_isDigit hc
  · rfl

theorem Spelled.raw {d : Nat} {txt : GoString} (h : Spelled d .value txt) :
    ReadsRaw d txt fun _ => True := by
  refine ⟨h.skipSpace, fun fuel c rest hc hlt => ?_⟩
  obtain ⟨v, hv⟩ := h.accepted fuel (c :: rest) hlt (by
    rintro a ⟨⟩
    rcases hc with rfl | rfl <;> rfl)
  exact ⟨v, trivial, hv⟩

/-- One member, up to the delimiter after its value. -/
theorem rawMembers_member {d : Nat} {k txt : GoString} {P : Json → Prop}
    (h : ReadsRaw d txt P) (fuel : Nat) {c : UInt8} (rest : GoString)
    (hc : c = 0x2C ∨ c = 0x7D) :
    ∃ v, P v ∧ rawMembers (fuel + 1) d (quote k ++ 0x3A :: (txt ++ c :: rest))
      = (match expect 0x7D (c :: rest) with
        | some r => some ([(toValidUTF8 k, v, txt)], r)
        | none => (do
          let s ← expect 0x2C (c :: rest)
          let (fs, r) ← rawMembers fuel d s
          some ((toValidUTF8 k, v, txt) :: fs, r))) := by
  obtain ⟨v, hPv, hv⟩ := h.value ((txt ++ c :: rest).length + 1) c rest hc (by simp)
  refine ⟨v, hPv, ?_⟩
  have hq : quote k ++ 0x3A :: (txt ++ c :: rest)
      = 0x22 :: (escape k ++ 0x22 :: 0x3A :: (txt ++ c :: rest)) := by
    simp [quote]
  have hraw : (txt ++ c :: rest).take ((txt ++ c :: rest).length - (c :: rest).length) = txt := by
    simp
  rw [hq, rawMembers, expect_cons _ (by rfl)]
  simp only [Option.bind_eq_bind, Option.bind_some, unquote_escape]
  rw [expect_cons _ (by rfl)]
  simp only [Option.bind_some, hv, h.head, hraw]

/-- **The members of an object are read back in order, each with its text.** -/
theorem rawMembers_writeMembers {d : Nat} {fs : List (GoString × GoString)}
    {Ps : List (Json → Prop)} (h : List.Forall₂ (fun f P => ReadsRaw d f.2 P) fs Ps)
    (hne : fs ≠ []) (fuel : Nat) (hfuel : fs.length ≤ fuel) (rest : GoString) :
    ∃ vs, List.Forall₂ (fun P v => P v) Ps vs ∧ rawMembers fuel d (writeMembers fs ++ rest)
      = some ((fs.zip vs).map (fun p => (toValidUTF8 p.1.1, p.2, p.1.2)), rest) := by
  induction h generalizing fuel with
  | nil => exact absurd rfl hne
  | @cons f P fs Ps hf hrest ih =>
      obtain ⟨k, txt⟩ := f
      obtain ⟨fuel, rfl⟩ : ∃ m, fuel = m + 1 := ⟨fuel - 1, by simp at hfuel; omega⟩
      -- the last member is followed by the brace, every other by a comma
      cases fs with
      | nil =>
          cases hrest
          obtain ⟨v, hPv, hv⟩ := @rawMembers_member d k txt P hf fuel 0x7D rest (.inr rfl)
          refine ⟨[v], .cons hPv .nil, ?_⟩
          simp only [writeMembers, List.append_assoc, List.cons_append, List.nil_append]
          rw [hv, expect_cons _ (by rfl)]
          rfl
      | cons g fs =>
          obtain ⟨vs, hvs, hrec⟩ := ih (by simp) fuel (by simpa using hfuel)
          obtain ⟨v, hPv, hv⟩ := @rawMembers_member d k txt P hf fuel 0x2C
            (writeMembers (g :: fs) ++ rest) (.inl rfl)
          refine ⟨v :: vs, .cons hPv hvs, ?_⟩
          simp only [writeMembers, List.append_assoc, List.cons_append]
          rw [hv, expect_ne _ (by rfl) (by decide), expect_cons _ (by rfl)]
          simp only [Option.bind_eq_bind, Option.bind_some, hrec]
          simp

/-- **A struct is decoded from what was marshalled**: every member, with the text it has there. -/
theorem parseRaw_writeObject {fs : List (GoString × GoString)} {Ps : List (Json → Prop)}
    (h : List.Forall₂ (fun f P => ReadsRaw (maxNestingDepth - 1) f.2 P) fs Ps) (hne : fs ≠ [])
    {ws : GoString} (hws : Spaces ws) :
    ∃ vs, List.Forall₂ (fun P v => P v) Ps vs ∧ parseRaw (writeObject fs ++ ws)
      = some ((fs.zip vs).map (fun p => (toValidUTF8 p.1.1, p.2, p.1.2))) := by
  have hlen := length_writeMembers fs
  obtain ⟨vs, hvs, hm⟩ := rawMembers_writeMembers h hne ((writeMembers fs ++ ws).length + 1)
    (by simp; omega) ws
  refine ⟨vs, hvs, ?_⟩
  -- the reader looks for an empty object first
  have hhead : expect 0x7D (writeMembers fs ++ ws) = none := by
    cases fs with
    | nil => exact absurd rfl hne
    | cons f fs =>
        obtain ⟨k, txt⟩ := f
        cases fs with
        | nil => exact expect_ne _ (by rfl) (by decide)
        | cons g fs => exact expect_ne _ (by rfl) (by decide)
  have hend : skipSpace ws = [] := by
    have := skipSpace_spaces hws []
    rwa [List.append_nil] at this
  unfold parseRaw writeObject
  rw [List.cons_append, skipSpace_cons _ (by rfl)]
  simp only [if_pos, hhead, hm, Option.bind_eq_bind, Option.bind_some, hend]

end Gsnet.Go
