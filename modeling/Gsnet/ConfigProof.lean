import Gsnet.Config
import Gsnet.Lib.Fallible
import Gsnet.Nodename

/-!
# Configuration files that are written and read back

`Render` writes a line `Key = Value` for every entry, and `Parse` takes a text
apart line by line. What decides whether an entry survives is said by `Clean`: its
key and its value are trimmed and not empty, neither holds a line feed, and the
key holds no `=` and does not begin with `#`.

* **P1.** What `Parse` returns is clean, and its keys are in canonical
  capitalization.
* **P2.** Clean entries are read back as they were written, with their keys in
  canonical capitalization, if none of their lines is too long for the scanner.

So the only thing that keeps a file that was read from being written and read
again is the length of its lines: `Key Value` becomes `Key = Value`.
-/

namespace Gsnet.Config

open Go Lib

/-- An entry that its line determines. -/
structure Entry.Clean (e : Entry) : Prop where
  key_ne_nil : e.key ≠ []
  key_trimmed : Trimmed e.key
  /-- A line feed ends the line. -/
  key_line : 0x0A ∉ e.key
  /-- The first `=` ends the key. -/
  key_sep : 0x3D ∉ e.key
  /-- A `#` makes a comment of the line. -/
  key_comment : e.key.head? ≠ some 0x23
  value_ne_nil : e.value ≠ []
  value_trimmed : Trimmed e.value
  value_line : 0x0A ∉ e.value

instance (e : Entry) : Decidable e.Clean :=
  decidable_of_iff (e.key ≠ [] ∧ Trimmed e.key ∧ 0x0A ∉ e.key ∧ 0x3D ∉ e.key
      ∧ e.key.head? ≠ some 0x23 ∧ e.value ≠ [] ∧ Trimmed e.value ∧ 0x0A ∉ e.value)
    ⟨fun ⟨h1, h2, h3, h4, h5, h6, h7, h8⟩ => ⟨h1, h2, h3, h4, h5, h6, h7, h8⟩,
      fun ⟨h1, h2, h3, h4, h5, h6, h7, h8⟩ => ⟨h1, h2, h3, h4, h5, h6, h7, h8⟩⟩

/-! ## Canonical keys -/

/-- A key that `Parse` returns. -/
def Canonical (k : GoString) : Prop := canonicalKey k = k

theorem canonicalKey_cases (k : GoString) : canonicalKey k ∈ canonical ∨ canonicalKey k = k := by
  unfold canonicalKey
  cases h : canonical.find? fun c => toLower c == toLower k with
  | none => exact .inr rfl
  | some c => exact .inl (List.mem_of_find?_eq_some h)

theorem nodup_canonical : (canonical.map toLower).Nodup := by
  decide +kernel

/-- A known key in any spelling of the table: the table has it once. -/
theorem canonicalKey_of_mem {c k : GoString} (hc : c ∈ canonical) (h : toLower c = toLower k) :
    canonicalKey k = c := by
  unfold canonicalKey
  cases hf : canonical.find? fun c => toLower c == toLower k with
  | none => exact absurd h (by simpa using List.find?_eq_none.mp hf c hc)
  | some c' =>
      have heq : toLower c' = toLower k := by simpa using List.find?_some hf
      exact List.inj_on_of_nodup_map nodup_canonical (List.mem_of_find?_eq_some hf) hc
        (heq.trans h.symm)

theorem canonical_of_mem {c : GoString} (hc : c ∈ canonical) : Canonical c :=
  canonicalKey_of_mem hc rfl

theorem canonical_canonicalKey (k : GoString) : Canonical (canonicalKey k) := by
  rcases canonicalKey_cases k with h | h
  · exact canonical_of_mem h
  · unfold Canonical
    rw [h, h]

/-- An entry with its key in canonical capitalization. -/
def Entry.canon (e : Entry) : Entry := ⟨canonicalKey e.key, e.value⟩

/-- The known keys are words: letters and digits. -/
theorem known_words :
    (canonical.all fun c => c ≠ [] && c.all fun b => 0x30 ≤ b && b < 0x80 && b != 0x3D) = true := by
  decide +kernel

theorem known_bytes {c : GoString} (hc : c ∈ canonical) :
    c ≠ [] ∧ ∀ b ∈ c, 0x30 ≤ b ∧ b < 0x80 ∧ b ≠ 0x3D := by
  simpa [and_assoc] using List.all_eq_true.mp known_words c hc

/-- A canonical key is no longer than what it was spelled as. -/
theorem length_canonicalKey (k : GoString) : (canonicalKey k).length ≤ k.length := by
  unfold canonicalKey
  cases hf : canonical.find? fun c => toLower c == toLower k with
  | none => exact Nat.le_refl _
  | some c =>
      have hascii : ∀ b ∈ c, b < 0x80 :=
        fun b hb => ((known_bytes (List.mem_of_find?_eq_some hf)).2 b hb).2.1
      have hlow : toLower c = toLower k := by simpa using List.find?_some hf
      calc c.length = (toLower c).length := (length_toLower_ascii hascii).symm
        _ = (toLower k).length := by rw [hlow]
        _ ≤ k.length := length_toLower_le k

theorem not_isAsciiSpace_of_le {b : UInt8} (h : 0x30 ≤ b) : isAsciiSpace b = false := by
  by_contra hn
  simp only [Bool.not_eq_false, isAsciiSpace, Bool.or_eq_true, Bool.and_eq_true, beq_iff_eq,
    decide_eq_true_eq] at hn
  rcases hn with rfl | ⟨-, hn⟩
  · exact absurd h (by decide)
  · exact absurd (UInt8.le_trans h hn) (by decide)

/-- A known key needs only a value that its line determines. -/
theorem clean_of_known {c v : GoString} (hc : c ∈ canonical) (hne : v ≠ []) (ht : Trimmed v)
    (hn : 0x0A ∉ v) : Entry.Clean ⟨c, v⟩ := by
  obtain ⟨hkey, hb⟩ := known_bytes hc
  refine ⟨hkey, trimmed_of_ascii fun b hm => ⟨(hb b hm).2.1, not_isAsciiSpace_of_le (hb b hm).1⟩,
    fun hm => absurd (hb _ hm).1 (by decide), fun hm => (hb _ hm).2.2 rfl, fun hh => ?_,
    hne, ht, hn⟩
  exact absurd (hb _ (List.mem_of_mem_head? hh)).1 (by decide)

/-- The name of a node is such a value. -/
theorem clean_of_validate {name c : GoString} (h : Nodename.validate name = .ok ())
    (hc : c ∈ canonical) : Entry.Clean ⟨c, name⟩ := by
  have hrunes := Nodename.validate_ok h
  refine clean_of_known hc (Nodename.ne_nil_of_validate h) ?_ fun hm => ?_
  · refine trimmed_of_ascii fun b hb => ?_
    exact ⟨Nodename.isNameRune_lt (hrunes b hb),
      not_isAsciiSpace_of_le (Nodename.isNameRune_ge (hrunes b hb))⟩
  · exact absurd (hrunes _ hm) (by decide)

theorem Entry.Clean.canon {e : Entry} (h : e.Clean) : e.canon.Clean := by
  rcases canonicalKey_cases e.key with hc | hc
  · exact clean_of_known hc h.value_ne_nil h.value_trimmed h.value_line
  · have he : e.canon = e := by rw [Entry.canon, hc]
    rwa [he]

/-! ## One line -/

theorem Entry.Clean.line_trimmed {e : Entry} (h : e.Clean) : Trimmed e.line :=
  h.key_trimmed.join h.key_ne_nil h.value_trimmed h.value_ne_nil (by decide +kernel) (by decide)

theorem Entry.Clean.line_line {e : Entry} (h : e.Clean) : 0x0A ∉ e.line := by
  have hmid : (0x0A : UInt8) ∉ str " = " := by decide +kernel
  simp only [Entry.line, List.mem_append, not_or]
  exact ⟨⟨h.key_line, hmid⟩, h.value_line⟩

theorem Entry.Clean.not_isBlank {e : Entry} (h : e.Clean) : isBlank e.line = false := by
  obtain ⟨c, k, hk⟩ := List.exists_cons_of_ne_nil h.key_ne_nil
  have hc := h.key_comment
  rw [hk] at hc
  simpa [isBlank, Entry.line, hk] using hc

/-- The sign of the line is the one that was written. -/
theorem Entry.Clean.cut_line {e : Entry} (h : e.Clean) :
    ∃ k v, cut 0x3D e.line = (k, some v) ∧ trimSpace k = e.key ∧ trimSpace v = e.value := by
  have hkey : (0x3D : UInt8) ∉ e.key ++ [0x20] := by simpa using h.key_sep
  have hline : e.line = (e.key ++ [0x20]) ++ 0x3D :: 0x20 :: e.value := by
    simp [Entry.line, show str " = " = [0x20, 0x3D, 0x20] from rfl]
  have hend : trimSpace (e.key ++ [0x20]) = e.key :=
    trimSpace_append_space h.key_trimmed h.key_ne_nil (by decide) (by decide)
  exact ⟨_, _, by rw [hline, cut_append hkey], hend, trimSpace_space_cons h.value_trimmed⟩

/-- **The line of a clean entry is read back as the entry.** -/
theorem Entry.Clean.parseLine {e : Entry} (h : e.Clean) : parseLine e.line = .ok e.canon := by
  obtain ⟨k, v, hcut, hk, hv⟩ := h.cut_line
  have hsplit : splitLine e.line = .ok (e.key, e.value) := by
    simp only [splitLine, hcut, hk, hv]
  simp only [Config.parseLine, hsplit, ok_bind, if_neg h.key_ne_nil, if_neg h.value_ne_nil]
  rfl

/-- What a line is split into has neither line feeds nor white space at its ends. -/
theorem splitLine_spec {l key value : GoString} (ht : Trimmed l) (hn : 0x0A ∉ l)
    (hc : l.head? ≠ some 0x23) (h : splitLine l = .ok (key, value)) :
    Trimmed key ∧ 0x0A ∉ key ∧ 0x3D ∉ key ∧ key.head? ≠ some 0x23 ∧ Trimmed value
      ∧ 0x0A ∉ value := by
  -- a key that the line begins with
  have hfront : ∀ {k : GoString}, k <+: l → k.head? ≠ some 0x23 := by
    rintro k ⟨t, rfl⟩ hk
    obtain ⟨k, rfl⟩ : ∃ k', k = 0x23 :: k' := by
      cases k with
      | nil => cases hk
      | cons c k => exact ⟨k, by rw [Option.some.inj hk]⟩
    exact hc rfl
  unfold splitLine at h
  cases hcut : cut 0x3D l with
  | mk before after =>
    rw [hcut] at h
    cases after with
    | some after =>
        cases h
        obtain ⟨rfl, hsep⟩ := cut_eq_some hcut
        have hpre : before <+: before ++ 0x3D :: after := ⟨_, rfl⟩
        have htrim := trimSpace_front (spaceLen_front hpre ht.1)
        simp only [List.mem_append, List.mem_cons, not_or] at hn
        exact ⟨trimmed_trimSpace _, fun hm => hn.1 (mem_of_mem_trimSpace hm),
          fun hm => hsep (mem_of_mem_trimSpace hm), hfront (htrim.trans hpre),
          trimmed_trimSpace _, fun hm => hn.2.2 (mem_of_mem_trimSpace hm)⟩
    | none =>
        have hsep := cut_eq_none hcut
        simp only at h
        split at h
        · rename_i k k' ks hf
          cases h
          obtain ⟨hpre, hk⟩ := fields_cons ht.1 hf
          exact ⟨hk, fun hm => hn (hpre.mem hm), fun hm => hsep (hpre.mem hm), hfront hpre,
            trimmed_trimSpace _, fun hm => hn (List.mem_of_mem_drop (mem_of_mem_trimSpace hm))⟩
        · cases h

theorem parseLine_clean {l : GoString} {e : Entry} (ht : Trimmed l) (hn : 0x0A ∉ l)
    (hc : l.head? ≠ some 0x23) (h : parseLine l = .ok e) : e.Clean ∧ Canonical e.key := by
  obtain ⟨⟨key, value⟩, hsplit, h⟩ := bind_eq_ok.mp h
  obtain ⟨h1, h2, h3, h4, h5, h6⟩ := splitLine_spec ht hn hc hsplit
  simp only at h
  split at h
  · cases h
  split at h
  · cases h
  rename_i hk hv
  cases h
  exact ⟨Entry.Clean.canon (e := ⟨key, value⟩) ⟨hk, h1, h2, h3, h4, hv, h5, h6⟩,
    canonical_canonicalKey key⟩

/-! ## The lines of a file -/

/-- What every list has that `Parse` returns. -/
def Entries.Parsed (es : Entries) : Prop := ∀ e ∈ es, e.Clean ∧ Canonical e.key

theorem Entries.Parsed.map_canon {es : Entries} (h : es.Parsed) : es.map Entry.canon = es := by
  have hcanon : ∀ e ∈ es, e.canon = id e := fun e he => by
    have hk : canonicalKey e.key = e.key := (h e he).2
    rw [Entry.canon, hk, id]
  rw [List.map_congr_left hcanon, List.map_id]

theorem Entries.Parsed.filter {es : Entries} (h : es.Parsed) (q : Entry → Bool) :
    Entries.Parsed (es.filter q) :=
  fun e he => h e (List.mem_of_mem_filter he)

/-- The entries of lines that are not too long. -/
def parseLines (ls : List GoString) : Except Error Entries :=
  (((ls.map dropCR).map trimSpace).filter fun l => !isBlank l).mapM parseLine

theorem parse_eq_ok {text : GoString} {es : Entries} :
    parse text = .ok es ↔
      (∀ l ∈ rawLines [] text, l.length ≤ maxLine) ∧ parseLines (rawLines [] text) = .ok es := by
  by_cases hall : ∀ l ∈ rawLines [] text, l.length ≤ maxLine
  · rw [and_iff_right hall, parse, scanLines_of_short hall, bind_eq_ok]
    simp only [Bool.false_eq_true, if_false]
    exact ⟨fun ⟨_, h, heq⟩ => Except.ok.inj heq ▸ h, fun h => ⟨es, h, rfl⟩⟩
  · refine ⟨fun h => ?_, fun h => absurd h.1 hall⟩
    obtain ⟨es', -, h⟩ := bind_eq_ok.mp h
    rw [if_pos (scanLines_of_long hall)] at h
    cases h

theorem parseLines_clean {ls : List GoString} {es : Entries} (hls : ∀ l ∈ ls, 0x0A ∉ l)
    (h : parseLines ls = .ok es) : es.Parsed := by
  intro e he
  obtain ⟨l, hl, hparse⟩ := exists_of_mem_mapM h he
  obtain ⟨hl, hblank⟩ := List.mem_filter.mp hl
  rw [List.map_map] at hl
  obtain ⟨raw, hraw, rfl⟩ := List.mem_map.mp hl
  refine parseLine_clean (trimmed_trimSpace _) (fun hm => hls raw hraw ?_) ?_ hparse
  · exact mem_of_mem_dropCR (mem_of_mem_trimSpace hm)
  · simp only [isBlank, Bool.not_or, Bool.and_eq_true, Bool.not_eq_true', decide_eq_false_iff_not]
      at hblank
    exact hblank.2

theorem parseLines_lines {es : Entries} (h : ∀ e ∈ es, e.Clean) :
    parseLines (es.map Entry.line) = .ok (es.map Entry.canon) := by
  have hlines : ((es.map Entry.line).map dropCR).map trimSpace = es.map Entry.line := by
    rw [List.map_map, List.map_map]
    refine List.map_congr_left fun e he => ?_
    have ht := (h e he).line_trimmed
    simp only [Function.comp_apply, dropCR_of_trimmed ht, trimSpace_of_trimmed ht]
  have hkeep : (es.map Entry.line).filter (fun l => !isBlank l) = es.map Entry.line := by
    refine List.filter_eq_self.mpr fun l hl => ?_
    obtain ⟨e, he, rfl⟩ := List.mem_map.mp hl
    simp [(h e he).not_isBlank]
  rw [parseLines, hlines, hkeep, mapM_eq_ok, List.forall₂_map_left_iff, List.forall₂_map_right_iff]
  exact List.forall₂_same.mpr fun e he => (h e he).parseLine

/-! ## Files -/

/-- The lines of a rendered list are those of its entries, whatever follows. -/
theorem rawLines_render {es : Entries} (h : ∀ e ∈ es, 0x0A ∉ e.line) (t : GoString) :
    rawLines [] (es.render ++ t) = es.map Entry.line ++ rawLines [] t := by
  have hrender : es.render = (es.map Entry.line).flatMap (· ++ [0x0A]) := by
    rw [Entries.render, List.flatMap_map]
  rw [hrender]
  refine rawLines_lines (fun l hl => ?_) t
  obtain ⟨e, he, rfl⟩ := List.mem_map.mp hl
  exact h e he

/-- **P1.** What was read is clean. -/
theorem parse_clean {text : GoString} {es : Entries} (h : parse text = .ok es) : es.Parsed :=
  parseLines_clean (notMem_rawLines List.not_mem_nil) (parse_eq_ok.mp h).2

/-- None of the lines is too long to be read. -/
def Entries.Short (es : Entries) : Prop := ∀ e ∈ es, e.line.length ≤ maxLine

instance (es : Entries) : Decidable es.Short := inferInstanceAs (Decidable (∀ e ∈ es, _))

theorem Entries.Short.map_canon {es : Entries} (h : es.Short) :
    Entries.Short (es.map Entry.canon) := by
  intro e' he'
  obtain ⟨e, he, rfl⟩ := List.mem_map.mp he'
  have hlen := h e he
  have hkey := length_canonicalKey e.key
  simp only [Entry.line, Entry.canon, List.length_append] at hlen ⊢
  omega

/-- **P2.** Clean entries are read back, unless a line is too long. -/
theorem parse_render_iff {es es' : Entries} (h : ∀ e ∈ es, e.Clean) :
    parse es.render = .ok es' ↔ es.Short ∧ es' = es.map Entry.canon := by
  have hraw : rawLines [] es.render = es.map Entry.line := by
    have := rawLines_render (fun e he => (h e he).line_line) []
    simpa [rawLines] using this
  rw [parse_eq_ok, hraw, parseLines_lines h, List.forall_mem_map, Except.ok.injEq, eq_comm]
  rfl

theorem parseLine_ne_os (line : GoString) (o : OsError) : parseLine line ≠ .error (.os o) := by
  unfold parseLine splitLine
  split
  · simp only [ok_bind]
    split
    · simp
    · split <;> simp
  · split
    · simp only [ok_bind]
      split
      · simp
      · split <;> simp
    · intro h
      cases h

/-- A text that was read is not missing. -/
theorem parse_ne_os (text : GoString) (o : OsError) : parse text ≠ .error (.os o) := by
  intro h
  unfold parse at h
  simp only at h
  cases hm : (((scanLines text).1.map trimSpace).filter fun l => !isBlank l).mapM parseLine with
  | error e =>
      rw [hm] at h
      cases h
      obtain ⟨line, -, hline⟩ := exists_of_mapM_error hm
      exact parseLine_ne_os line o hline
  | ok entries =>
      rw [hm, ok_bind] at h
      split at h
      · cases h
      · cases h

theorem parseFile_ok_iff {fs : FileSystem} {path : GoString} {es : Entries} :
    parseFile fs path = .ok es ↔ ∃ text, fs.readFile path = .ok text ∧ parse text = .ok es := by
  unfold parseFile
  cases fs.readFile path with
  | error e => simp
  | ok text => simp

theorem parseFile_parsed {fs : FileSystem} {path : GoString} {es : Entries}
    (h : parseFile fs path = .ok es) : es.Parsed := by
  unfold parseFile at h
  split at h
  · cases h
  · exact parse_clean h

theorem loadDirectory_parsed {fs : FileSystem} {path : GoString} {es : Entries}
    (h : loadDirectory fs path = .ok es) : es.Parsed := by
  -- what the fragments add to entries that were parsed
  have hfragments : ∀ {entries : Entries} {confd : GoString} {dirEntries : List DirEntry},
      entries.Parsed → ((fragments dirEntries).mapM (fun n => parseFile fs (join [confd, n]))
        >>= fun more => .ok (entries ++ more.flatten)) = .ok es → es.Parsed := by
    intro entries confd dirEntries hentries h
    obtain ⟨more, hmore, h⟩ := bind_eq_ok.mp h
    cases h
    intro e he
    rcases List.mem_append.mp he with he | he
    · exact hentries e he
    · obtain ⟨fragment, hfragment, he⟩ := List.mem_flatten.mp he
      obtain ⟨n, -, hn⟩ := exists_of_mem_mapM hmore hfragment
      exact parseFile_parsed hn e he
  unfold loadDirectory at h
  simp only at h
  split at h
  · -- no primary file
    rw [ok_bind] at h
    split at h
    · cases h
      exact fun e he => absurd he List.not_mem_nil
    · cases h
    · exact hfragments (fun e he => absurd he List.not_mem_nil) h
  · obtain ⟨entries, hentries, h⟩ := bind_eq_ok.mp h
    split at h
    · cases h
      exact parseFile_parsed hentries
    · cases h
    · exact hfragments (parseFile_parsed hentries) h

/-! ## Lookups -/

theorem mem_of_getFirst {es : Entries} {key value : GoString} (h : es.getFirst key = some value) :
    ∃ e ∈ es, equalFold e.key key = true ∧ e.value = value := by
  obtain ⟨e, he, hval⟩ := Option.map_eq_some_iff.mp h
  have hkey := @List.find?_some Entry (fun e => equalFold e.key key) _ _ he
  exact ⟨e, List.mem_of_find?_eq_some he, hkey, hval⟩

section Lookups

variable [CaseFold] {es : Entries} {k value : GoString}

theorem mem_getAllOf : value ∈ es.getAllOf k ↔ ∃ e ∈ es, EqualFold e.key k ∧ e.value = value := by
  simp [Entries.getAllOf, and_assoc]

theorem getAllOf_append (es es' : Entries) (k : GoString) :
    Entries.getAllOf (es ++ es') k = es.getAllOf k ++ es'.getAllOf k := by
  simp [Entries.getAllOf]

theorem getAllOf_single (e : Entry) (k : GoString) :
    Entries.getAllOf [e] k = if EqualFold e.key k then [e.value] else [] := by
  by_cases h : EqualFold e.key k <;> simp [Entries.getAllOf, h]

end Lookups

end Gsnet.Config
