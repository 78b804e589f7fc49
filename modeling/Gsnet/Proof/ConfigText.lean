import Gsnet.ConfigProof

/-!
# The two spellings of a line

A file that was read can be written and read again: what `Parse` returns is just
what `Render` keeps (**P1** and **P2** of `ConfigProof`).

The package comment has two spellings for a line, "Key = Value" or "Key Value
(the = is optional)". Which one a line is in is decided by whether there is an
`=` anywhere in it. A value with an `=` of its own, as a padded base64 text is,
needs the one in front of it.
-/

namespace Gsnet.Config

open Go Lib

/--
**What was read is written and read back**: the same keys and values in the same
order, as often as they were there.
-/
theorem parse_render_of_parse {text : GoString} {es : Entries} (h : parse text = .ok es)
    (hshort : es.Short) : parse es.render = .ok es := by
  have hparsed := parse_clean h
  exact (parse_render_iff fun e he => (hparsed e he).1).mpr ⟨hshort, hparsed.map_canon.symm⟩

/-- Two spellings, a comment, a key in another case and one that is not known. -/
theorem parse_render_of_parse_sample :
    parse (Entries.render
        [⟨str "Name", str "a"⟩, ⟨str "Port", str "655"⟩, ⟨str "x-y", str "#1 = z"⟩])
      = .ok [⟨str "Name", str "a"⟩, ⟨str "Port", str "655"⟩, ⟨str "x-y", str "#1 = z"⟩] :=
  @parse_render_of_parse (str " name = a \n# c\nPORT  655\r\n\nx-y = #1 = z") _
    (by decide +kernel) (by decide +kernel)

/-! ## With and without the sign -/

/-- A key as it may be written in either spelling. -/
structure PlainKey (k : GoString) : Prop where
  ne_nil : k ≠ []
  noSpace : NoSpace k
  sep : 0x3D ∉ k
  comment : k.head? ≠ some 0x23

/-- A value as it may be written. -/
structure PlainValue (v : GoString) : Prop where
  ne_nil : v ≠ []
  trimmed : Trimmed v
  line : 0x0A ∉ v

/-- The line without the sign. -/
def shortLine (k v : GoString) : GoString := k ++ 0x20 :: v

/-- The last line of a file, or one that ends. -/
def IsEOL (eol : GoString) : Prop := eol = [] ∨ eol = [0x0A]

variable {k v eol : GoString}

theorem PlainKey.clean (hk : PlainKey k) (hv : PlainValue v) : Entry.Clean ⟨k, v⟩ where
  key_ne_nil := hk.ne_nil
  key_trimmed := hk.noSpace.trimmed
  key_line := hk.noSpace.notMem (by decide)
  key_sep := hk.sep
  key_comment := hk.comment
  value_ne_nil := hv.ne_nil
  value_trimmed := hv.trimmed
  value_line := hv.line

/-- A text of one line, trimmed and no comment. -/
theorem parse_one {l : GoString} (heol : IsEOL eol) (hne : l ≠ []) (ht : Trimmed l)
    (hn : 0x0A ∉ l) (hb : isBlank l = false) {es : Entries} :
    parse (l ++ eol) = .ok es ↔ l.length ≤ maxLine ∧ ∃ e, parseLine l = .ok e ∧ es = [e] := by
  have hraw : rawLines [] (l ++ eol) = [l] := by
    rcases heol with rfl | rfl
    · rw [List.append_nil, rawLines_of_notMem hn, List.nil_append, if_neg hne]
    · rw [rawLines_append hn]
      rfl
  have hlines : parseLines [l] = [l].mapM parseLine := by
    simp [parseLines, dropCR_of_trimmed ht, trimSpace_of_trimmed ht, hb]
  rw [parse_eq_ok, hraw, hlines, mapM_eq_ok, List.forall₂_cons_left_iff]
  simp

theorem isBlank_append (hk : PlainKey k) (t : GoString) : isBlank (k ++ t) = false := by
  obtain ⟨c, k', rfl⟩ := List.exists_cons_of_ne_nil hk.ne_nil
  simpa [isBlank] using hk.comment

/-- The spelling with the sign. -/
theorem parse_line_iff (heol : IsEOL eol) (hk : PlainKey k) (hv : PlainValue v) {es : Entries} :
    parse (Entry.line ⟨k, v⟩ ++ eol) = .ok es
      ↔ (Entry.line ⟨k, v⟩).length ≤ maxLine ∧ es = [⟨canonicalKey k, v⟩] := by
  have hclean := hk.clean hv
  have hne : Entry.line ⟨k, v⟩ ≠ [] := by simp [Entry.line, hk.ne_nil]
  rw [parse_one heol hne hclean.line_trimmed hclean.line_line hclean.not_isBlank,
    hclean.parseLine]
  simp [Entry.canon]

theorem shortLine_trimmed (hk : PlainKey k) (hv : PlainValue v) :
    Trimmed (shortLine k v) ∧ 0x0A ∉ shortLine k v := by
  have hclean := hk.clean hv
  constructor
  · have h := @Trimmed.join k v [0x20] hclean.key_trimmed hk.ne_nil hv.trimmed hv.ne_nil
      (by simp) (by simp)
    simpa [shortLine] using h
  · simp [shortLine, hclean.key_line, hv.line]

/-- The spelling without it, of a value that has none. -/
theorem parse_shortLine (heol : IsEOL eol) (hk : PlainKey k) (hv : PlainValue v)
    (hsep : 0x3D ∉ v) (hlen : (shortLine k v).length ≤ maxLine) :
    parse (shortLine k v ++ eol) = .ok [⟨canonicalKey k, v⟩] := by
  obtain ⟨htrim, hline⟩ := shortLine_trimmed hk hv
  have hnone : 0x3D ∉ shortLine k v := by
    simp [shortLine, hk.sep, hsep]
  obtain ⟨x, xs, hf⟩ := fields_pair hk.noSpace hk.ne_nil hv.trimmed.1 hv.ne_nil
  have hparse : parseLine (shortLine k v) = .ok ⟨canonicalKey k, v⟩ := by
    have hsplit : splitLine (shortLine k v) = .ok (k, v) := by
      rw [splitLine, cut_of_notMem hnone]
      simp only [shortLine, hf, List.drop_left, trimSpace_space_cons hv.trimmed]
    simp only [parseLine, hsplit, ok_bind, if_neg hk.ne_nil, if_neg hv.ne_nil]
  exact (parse_one heol (by simp [shortLine]) htrim hline (isBlank_append hk _)).mpr
    ⟨hlen, _, hparse, rfl⟩

example : parse (shortLine (str "Port") (str "655")) = .ok [⟨str "Port", str "655"⟩] := by
  decide +kernel

/-- With a sign in the value, what is behind it is all that is read as the value. -/
theorem value_of_shortLine (heol : IsEOL eol) (hk : PlainKey k) (hv : PlainValue v)
    (hsep : 0x3D ∈ v) {key value : GoString}
    (h : parse (shortLine k v ++ eol) = .ok [⟨key, value⟩]) : value.length < v.length := by
  obtain ⟨htrim, hline⟩ := shortLine_trimmed hk hv
  obtain ⟨v₁, v₂, rfl, hv₁⟩ := List.eq_append_cons_of_mem hsep
  have hkey : 0x3D ∉ k ++ 0x20 :: v₁ := by simp [hk.sep, hv₁]
  have hcut : cut 0x3D (shortLine k (v₁ ++ 0x3D :: v₂)) = (k ++ 0x20 :: v₁, some v₂) := by
    rw [← cut_append hkey]
    simp [shortLine]
  obtain ⟨-, e, hparse, heq⟩ :=
    (parse_one heol (by simp [shortLine]) htrim hline (isBlank_append hk _)).mp h
  cases heq
  simp only [parseLine, splitLine, hcut, ok_bind] at hparse
  split at hparse
  · cases hparse
  split at hparse
  · cases hparse
  cases hparse
  have hle := length_trimSpace_le v₂
  simp only [List.length_append, List.length_cons]
  omega

/--
**The `=` is optional exactly in front of a value without one**, on a line that is
not too long with it.
-/
theorem sign_optional_iff (heol : IsEOL eol) (hk : PlainKey k) (hv : PlainValue v) :
    parse (shortLine k v ++ eol) = .ok [⟨canonicalKey k, v⟩]
        ∧ parse (Entry.line ⟨k, v⟩ ++ eol) = .ok [⟨canonicalKey k, v⟩]
      ↔ 0x3D ∉ v ∧ (Entry.line ⟨k, v⟩).length ≤ maxLine := by
  have hlen : (Entry.line ⟨k, v⟩).length = (shortLine k v).length + 2 := by
    simp [Entry.line, shortLine, show str " = " = [0x20, 0x3D, 0x20] from rfl]
    omega
  rw [parse_line_iff heol hk hv]
  constructor
  · rintro ⟨hshort, hlong, -⟩
    refine ⟨fun hsep => ?_, hlong⟩
    exact absurd (value_of_shortLine heol hk hv hsep hshort) (Nat.lt_irrefl _)
  · rintro ⟨hsep, hlong⟩
    exact ⟨parse_shortLine heol hk hv hsep (by omega), hlong, rfl⟩

theorem plainKey_sample : PlainKey (str "wgpublickey") :=
  ⟨by decide +kernel, noSpace_ascii (by decide +kernel), by decide +kernel, by decide +kernel⟩

/-- A value of two words. -/
theorem sign_optional_sample :
    parse (shortLine (str "wgpublickey") (str "a b") ++ [0x0A])
        = .ok [⟨canonicalKey (str "wgpublickey"), str "a b"⟩]
      ∧ parse (Entry.line ⟨str "wgpublickey", str "a b"⟩ ++ [0x0A])
        = .ok [⟨canonicalKey (str "wgpublickey"), str "a b"⟩] :=
  (sign_optional_iff (.inr rfl) plainKey_sample
    ⟨by decide +kernel, by decide +kernel, by decide +kernel⟩).mpr
    ⟨by decide +kernel, by decide +kernel⟩

/-- The key `AAAA=` without the sign in front of it has no value left. -/
theorem sign_needed :
    PlainKey (str "wgpublickey") ∧ PlainValue (str "AAAA=")
      ∧ parse (Entry.line ⟨str "wgpublickey", str "AAAA="⟩)
          = .ok [⟨str "WGPublicKey", str "AAAA="⟩]
      ∧ parse (shortLine (str "wgpublickey") (str "AAAA="))
          = .error (.emptyValue (str "wgpublickey AAAA=")) :=
  ⟨plainKey_sample, ⟨by decide +kernel, by decide +kernel, by decide +kernel⟩, by decide +kernel,
    by decide +kernel⟩

end Gsnet.Config
