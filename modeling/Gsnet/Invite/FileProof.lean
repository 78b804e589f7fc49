import Gsnet.ConfigProof
import Gsnet.Invite.File

/-!
# Invitation files, line by line

What a line does to the scan does not depend on where it stands: it is skipped, it
ends a block, or it is an entry, and an entry ends a block too if its key is `Name`.
So a file is read in two passes that do not know of each other: its lines become
tokens (`scanBlocks_eq_ok`), and the tokens are put together to blocks. What is
shown of the second pass is what invitations need: a stretch without a start of a
block goes to the current one (`foldl_advance_of_plain`), and blocks that are
finished stay (`foldl_advance_blocks`).
-/

namespace Gsnet.Invite

open Go Config Lib

/-- What one line means. -/
inductive Token where
  | skip
  | separator
  | entry (e : Entry)
  deriving DecidableEq

/-- The token of a trimmed line. -/
def token (line : GoString) : Except FileError Token :=
  if line = [] then .ok .skip
  else if line.head? = some 0x23 then .ok .separator
  else (parseConfigLine line).map .entry

def isName (e : Entry) : Bool := equalFold e.key (str "Name")

/-- Whether a token ends the block before it. -/
def Token.starts : Token → Bool
  | .skip => false
  | .separator => true
  | .entry e => isName e

/-- The entries among tokens. -/
def entriesOf (toks : List Token) : Entries :=
  toks.filterMap fun t => match t with
    | .entry e => some e
    | _ => none

def advance (st : Scan) : Token → Scan
  | .skip => st
  | .separator => flush st
  | .entry e =>
    let st := if isName e ∧ st.2 ≠ [] then flush st else st
    (st.1, st.2 ++ [e])

/-! ## From lines to tokens -/

theorem scanLine_eq (st : Scan) (line : GoString) :
    scanLine st line = (token line).map (advance st) := by
  unfold scanLine token
  split
  · rfl
  split
  · rfl
  cases parseConfigLine line with
  | error e => rfl
  | ok e => rfl

theorem foldlM_scanLine (lines : List GoString) (st : Scan) :
    lines.foldlM scanLine st = (lines.mapM token).map (·.foldl advance st) := by
  induction lines generalizing st with
  | nil => rfl
  | cons line lines ih =>
      rw [List.foldlM_cons, List.mapM_cons, scanLine_eq]
      cases token line with
      | error e => rfl
      | ok t =>
          refine (ih (advance st t)).trans ?_
          cases lines.mapM token <;> rfl

/-- The tokens of raw lines. -/
def tokens (ls : List GoString) : Except FileError (List Token) :=
  ((ls.map dropCR).map trimSpace).mapM token

theorem tokens_append (ls ls' : List GoString) :
    tokens (ls ++ ls')
      = (tokens ls >>= fun ts => tokens ls' >>= fun ts' => .ok (ts ++ ts')) := by
  simp only [tokens, List.map_append, List.mapM_append]
  rfl

/-- **A file is read when none of its lines is too long and each of them has a token.** -/
theorem scanBlocks_eq_ok {text : GoString} {bs : List Entries} :
    scanBlocks text = .ok bs ↔ (∀ l ∈ rawLines [] text, l.length ≤ maxLine)
      ∧ ∃ ts, tokens (rawLines [] text) = .ok ts ∧ bs = (flush (ts.foldl advance ([], []))).1 := by
  by_cases hall : ∀ l ∈ rawLines [] text, l.length ≤ maxLine
  · rw [and_iff_right hall, scanBlocks, scanLines_of_short hall]
    simp only [foldlM_scanLine, bind_eq_ok, Bool.false_eq_true, if_false]
    rw [← tokens]
    constructor
    · rintro ⟨st, hst, h⟩
      cases hts : tokens (rawLines [] text) with
      | error e =>
          rw [hts] at hst
          cases hst
      | ok ts =>
          rw [hts] at hst
          cases hst
          exact ⟨ts, rfl, (Except.ok.inj h).symm⟩
    · rintro ⟨ts, hts, rfl⟩
      exact ⟨ts.foldl advance ([], []), by rw [hts]; rfl, rfl⟩
  · refine ⟨fun h => ?_, fun h => absurd h.1 hall⟩
    obtain ⟨st, -, h⟩ := bind_eq_ok.mp h
    rw [if_pos (scanLines_of_long hall)] at h
    cases h

/-- On a line that a scanner has delivered `parseConfigLine` is `parseLine`. -/
theorem parseConfigLine_eq_ok {line : GoString} {e : Entry} (ht : Trimmed line)
    (hn : 0x0A ∉ line) (hlen : line.length ≤ maxLine) (hblank : isBlank line = false) :
    parseConfigLine line = .ok e ↔ parseLine line = .ok e := by
  have hne : line ≠ [] := by
    rintro rfl
    cases hblank
  have hraw : rawLines [] line = [line] := by
    rw [rawLines_of_notMem hn, List.nil_append, if_neg hne]
  have hlines : parseLines [line] = (parseLine line).map ([·]) := by
    simp only [parseLines, List.map_cons, List.map_nil, dropCR_of_trimmed ht,
      trimSpace_of_trimmed ht, hblank, Bool.not_false, List.filter_cons_of_pos, List.filter_nil,
      List.mapM_cons, List.mapM_nil]
    cases parseLine line <;> rfl
  have hparse : ∀ es, Config.parse line = .ok es ↔ (parseLine line).map ([·]) = .ok es := by
    intro es
    rw [parse_eq_ok, hraw, hlines]
    exact and_iff_right (by simpa using hlen)
  unfold parseConfigLine
  cases hl : parseLine line with
  | error err =>
      have hnot : ∀ es, Config.parse line ≠ .ok es := fun es h => by
        rw [hparse, hl] at h
        cases h
      cases hp : Config.parse line with
      | error err' => exact ⟨fun h => (by cases h), fun h => (by cases h)⟩
      | ok es => exact absurd hp (hnot es)
  | ok e' =>
      rw [(hparse [e']).mpr (by rw [hl]; rfl)]
      exact ⟨fun h => congrArg _ (Except.ok.inj h), fun h => congrArg _ (Except.ok.inj h)⟩

/-- The line of a clean entry. -/
theorem token_line {e : Entry} (h : e.Clean) (hlen : e.line.length ≤ maxLine) :
    token e.line = .ok (.entry e.canon) := by
  have hblank := h.not_isBlank
  have hentry := (parseConfigLine_eq_ok h.line_trimmed h.line_line hlen hblank).mpr h.parseLine
  simp only [isBlank, Bool.or_eq_false_iff, decide_eq_false_iff_not] at hblank
  rw [token, if_neg hblank.1, if_neg hblank.2, hentry]
  rfl

theorem tokens_lines {es : Entries} (h : ∀ e ∈ es, e.Clean) (hlen : es.Short) :
    tokens (es.map Entry.line) = .ok (es.map fun e => .entry e.canon) := by
  rw [tokens, List.map_map, List.map_map, mapM_eq_ok, List.forall₂_map_left_iff,
    List.forall₂_map_right_iff]
  refine List.forall₂_same.mpr fun e he => ?_
  have ht := (h e he).line_trimmed
  simp only [Function.comp_apply, dropCR_of_trimmed ht, trimSpace_of_trimmed ht]
  exact token_line (h e he) (hlen e he)

theorem tokens_separator : tokens [separator] = .ok [.separator] := by
  decide +kernel

/-! ## From tokens to blocks -/

theorem flush_blocks (st : Scan) : st.1 <+: (flush st).1 := by
  unfold flush
  split
  · exact List.prefix_rfl
  · exact ⟨[st.2], rfl⟩

theorem flush_of_ne_nil {st : Scan} (h : st.2 ≠ []) : flush st = (st.1 ++ [st.2], []) := if_neg h

theorem advance_blocks (st : Scan) (t : Token) : st.1 <+: (advance st t).1 := by
  cases t with
  | skip => exact List.prefix_rfl
  | separator => exact flush_blocks st
  | entry e =>
      simp only [advance]
      split
      · exact flush_blocks st
      · exact List.prefix_rfl

/-- Finished blocks stay. -/
theorem foldl_advance_blocks (toks : List Token) (st : Scan) :
    st.1 <+: (toks.foldl advance st).1 := by
  induction toks generalizing st with
  | nil => exact List.prefix_rfl
  | cons t toks ih => exact (advance_blocks st t).trans (ih (advance st t))

/-- A stretch that starts no block goes to the current one. -/
theorem foldl_advance_of_plain {toks : List Token} (h : ∀ t ∈ toks, t.starts = false) (st : Scan) :
    toks.foldl advance st = (st.1, st.2 ++ entriesOf toks) := by
  induction toks generalizing st with
  | nil => simp [entriesOf]
  | cons t toks ih =>
      have ht := h t List.mem_cons_self
      rw [List.foldl_cons, ih fun t' h' => h t' (List.mem_cons_of_mem t h')]
      cases t with
      | skip => rfl
      | separator => cases ht
      | entry e =>
          have hname : isName e = false := ht
          simp [advance, hname, entriesOf]

theorem mem_entriesOf {toks : List Token} {e : Entry} (h : e ∈ entriesOf toks) :
    .entry e ∈ toks := by
  obtain ⟨t, ht, heq⟩ := List.mem_filterMap.mp h
  cases t with
  | skip => cases heq
  | separator => cases heq
  | entry e' =>
      cases heq
      exact ht

/-- A start finishes the block before it. -/
theorem advance_of_starts {st : Scan} {t : Token} (h : st.2 ≠ []) (ht : t.starts = true) :
    (advance st t).1 = st.1 ++ [st.2] := by
  cases t with
  | skip => cases ht
  | separator => rw [advance, flush_of_ne_nil h]
  | entry e =>
      have hname : isName e = true := ht
      simp only [advance]
      rw [if_pos ⟨hname, h⟩, flush_of_ne_nil h]

theorem advance_entry_ne_nil (st : Scan) (e : Entry) : (advance st (.entry e)).2 ≠ [] := by
  simp [advance]

/-- Entries fill a block, or go on filling one. -/
theorem foldl_entries_ne_nil {st : Scan} {es : Entries} (h : st.2 ≠ [] ∨ es ≠ []) :
    ((es.map Token.entry).foldl advance st).2 ≠ [] := by
  rcases List.eq_nil_or_concat es with rfl | ⟨es, e, rfl⟩
  · exact h.resolve_right (by simp)
  · rw [List.concat_eq_append, List.map_append, List.foldl_append]
    exact advance_entry_ne_nil _ e

/-- And the end of the file finishes it. -/
theorem length_flush_entries {st : Scan} {es : Entries} (h : st.2 ≠ [] ∨ es ≠ []) :
    st.1.length + 1 ≤ (flush ((es.map Token.entry).foldl advance st)).1.length := by
  have hblocks := (foldl_advance_blocks (es.map Token.entry) st).length_le
  rw [flush_of_ne_nil (foldl_entries_ne_nil h), List.length_append]
  simpa using hblocks

/-- A start in the middle of a block finishes one more. -/
theorem length_flush_start {st : Scan} {e : Entry} (es : Entries) (h : st.2 ≠ [])
    (he : isName e = true) :
    st.1.length + 2 ≤ (flush (((e :: es).map Token.entry).foldl advance st)).1.length := by
  have hadv : (advance st (.entry e)).1 = st.1 ++ [st.2] := advance_of_starts h he
  have hend := @length_flush_entries _ es (.inl (advance_entry_ne_nil st e))
  rw [hadv, List.length_append, List.length_singleton] at hend
  exact hend

/-! ## What the entries of a file are -/

theorem token_entry {l : GoString} {e : Entry} (ht : Trimmed l) (hn : 0x0A ∉ l)
    (hlen : l.length ≤ maxLine) (h : token l = .ok (.entry e)) : e.Clean ∧ Canonical e.key := by
  unfold token at h
  split at h
  · cases h
  split at h
  · cases h
  rename_i hne hhead
  cases hp : parseConfigLine l with
  | error err =>
      rw [hp] at h
      cases h
  | ok e' =>
      rw [hp] at h
      cases h
      have hblank : isBlank l = false := by simp [isBlank, hne, hhead]
      exact parseLine_clean ht hn hhead ((parseConfigLine_eq_ok ht hn hlen hblank).mp hp)

theorem tokens_entries {ls : List GoString} {ts : List Token} (hn : ∀ l ∈ ls, 0x0A ∉ l)
    (hlen : ∀ l ∈ ls, l.length ≤ maxLine) (h : tokens ls = .ok ts) : (entriesOf ts).Parsed := by
  intro e he
  obtain ⟨l, hl, htok⟩ := exists_of_mem_mapM h (mem_entriesOf he)
  rw [List.map_map] at hl
  obtain ⟨raw, hraw, rfl⟩ := List.mem_map.mp hl
  refine token_entry (trimmed_trimSpace _) (fun hm => hn raw hraw ?_) ?_ htok
  · exact mem_of_mem_dropCR (mem_of_mem_trimSpace hm)
  · exact ((length_trimSpace_le _).trans (length_dropCR_le raw)).trans (hlen raw hraw)

theorem advance_entries (st : Scan) (t : Token) :
    (advance st t).1.flatten ++ (advance st t).2 = st.1.flatten ++ st.2 ++ entriesOf [t] := by
  have hflush : (flush st).1.flatten ++ (flush st).2 = st.1.flatten ++ st.2 := by
    unfold flush
    split <;> simp
  cases t with
  | skip => simp [advance, entriesOf]
  | separator => simpa [advance, entriesOf] using hflush
  | entry e =>
      simp only [advance, entriesOf, List.filterMap_cons, List.filterMap_nil]
      split
      · rw [← List.append_assoc, hflush]
      · rw [← List.append_assoc]

/-- No entry is lost and none is added: the blocks in a row are the entries of the file. -/
theorem flatten_blocks (ts : List Token) : (flush (ts.foldl advance ([], []))).1.flatten
    = entriesOf ts := by
  have hfold : ∀ (ts : List Token) (st : Scan),
      (ts.foldl advance st).1.flatten ++ (ts.foldl advance st).2
        = st.1.flatten ++ st.2 ++ entriesOf ts := by
    intro ts
    induction ts with
    | nil => simp [entriesOf]
    | cons t ts ih =>
        intro st
        rw [List.foldl_cons, ih, advance_entries, List.append_assoc]
        simp [entriesOf, List.filterMap_cons]
        cases t <;> rfl
  have hend : ∀ st : Scan, (flush st).1.flatten = st.1.flatten ++ st.2 := by
    intro st
    unfold flush
    split
    · simp_all
    · simp
  rw [hend, hfold]
  rfl

/-- **What stands in a block was read as a configuration line.** -/
theorem scanBlocks_parsed {text : GoString} {bs : List Entries} (h : scanBlocks text = .ok bs) :
    ∀ es ∈ bs, es.Parsed := by
  obtain ⟨hlen, ts, hts, rfl⟩ := scanBlocks_eq_ok.mp h
  intro es hes e he
  refine tokens_entries (notMem_rawLines List.not_mem_nil) hlen hts e ?_
  rw [← flatten_blocks]
  exact List.mem_flatten.mpr ⟨es, hes, he⟩

/-! ## From blocks to fields -/

/-- The keys that a block has fields for, and `Netname`, which only a file has. -/
def structural : List GoString :=
  ["Name", "Address", "ConnectTo", "Ifconfig", "Route", "Netname"].map str

def isStructural (e : Entry) : Bool := structural.any (equalFold e.key)

theorem addEntry_other (b : Block) (e : Entry) :
    (addEntry b e).other = if isStructural e then b.other else b.other ++ [e] := by
  simp only [isStructural, structural, List.map_cons, List.map_nil, List.any_cons, List.any_nil,
    Bool.or_false]
  unfold addEntry
  split_ifs <;> simp_all

theorem addEntry_name (b : Block) (e : Entry) :
    (addEntry b e).name = if isName e then e.value else b.name := by
  unfold addEntry isName
  split_ifs <;> rfl

theorem addEntry_address (b : Block) (e : Entry) :
    (addEntry b e).address = if equalFold e.key (str "Address") then e.value else b.address := by
  -- no key is both
  have hexcl : equalFold e.key (str "Name") = true → equalFold e.key (str "Address") = false := by
    intro h
    rw [equalFold, beq_iff_eq] at h
    rw [equalFold, h]
    decide
  unfold addEntry
  split_ifs <;> simp_all

theorem getAll_cons (e : Entry) (es : Entries) (key : GoString) :
    Entries.getAll (e :: es) key
      = if equalFold e.key key then e.value :: es.getAll key else es.getAll key := by
  simp only [Entries.getAll, List.filter_cons]
  split <;> rfl

theorem getAll_eq_nil {es : Entries} {key : GoString} (h : ∀ e ∈ es, equalFold e.key key = false) :
    es.getAll key = [] := by
  rw [Entries.getAll, List.map_eq_nil_iff, List.filter_eq_nil_iff]
  intro e he
  simpa using h e he

theorem foldl_addEntry (es : Entries) (b : Block) :
    (es.foldl addEntry b).name = (es.getAll (str "Name")).getLastD b.name
      ∧ (es.foldl addEntry b).address = (es.getAll (str "Address")).getLastD b.address
      ∧ (es.foldl addEntry b).other = b.other ++ es.filter fun e => !isStructural e := by
  induction es generalizing b with
  | nil => exact ⟨rfl, rfl, (List.append_nil _).symm⟩
  | cons e es ih =>
      obtain ⟨hname, haddr, hother⟩ := ih (addEntry b e)
      rw [List.foldl_cons, hname, haddr, hother, addEntry_name, addEntry_address, addEntry_other,
        getAll_cons, getAll_cons, List.filter_cons]
      refine ⟨?_, ?_, ?_⟩
      · unfold isName
        split
        · rw [List.getLastD_cons]
        · rfl
      · split
        · rw [List.getLastD_cons]
        · rfl
      · cases isStructural e <;> simp

/-- **What a block is made of**: the last name and address, and all entries without a field. -/
theorem blockFromEntries_spec (es : Entries) :
    (blockFromEntries es).name = (es.getAll (str "Name")).getLastD []
      ∧ (blockFromEntries es).address = (es.getAll (str "Address")).getLastD []
      ∧ (blockFromEntries es).other = es.filter fun e => !isStructural e :=
  foldl_addEntry es {}

theorem hostBlock_eq_ok {es : Entries} {b : Block} :
    hostBlock es = .ok b ↔ b = blockFromEntries es ∧ b.name ≠ [] := by
  unfold hostBlock
  simp only
  split
  · rename_i h
    exact ⟨fun hb => (by cases hb), fun hb => absurd (hb.1 ▸ h) hb.2⟩
  · rename_i h
    rw [Except.ok.injEq, eq_comm]
    exact ⟨fun hb => ⟨hb, hb ▸ h⟩, fun hb => hb.1⟩

/-- The network's name that a first block gives. -/
def netnameOf (es : Entries) : GoString :=
  (es.find? fun e => equalFold e.key (str "Netname")).elim [] Entry.value

/-- **What it takes to read a file**: blocks, and a name in each of them. -/
theorem parseFile_eq_ok {text : GoString} {f : File} :
    parseFile text = .ok f ↔ ∃ b rest, scanBlocks text = .ok (b :: rest)
      ∧ (blockFromEntries b).name ≠ [] ∧ rest.mapM hostBlock = .ok f.hosts
      ∧ f.invitee = blockFromEntries b ∧ f.netname = netnameOf b := by
  rw [parseFile, bind_eq_ok]
  constructor
  · rintro ⟨bs, hbs, h⟩
    cases bs with
    | nil => cases h
    | cons b rest =>
        simp only at h
        split at h
        · cases h
        · rename_i hname
          obtain ⟨hosts, hhosts, h⟩ := bind_eq_ok.mp h
          cases h
          exact ⟨b, rest, hbs, hname, hhosts, rfl, rfl⟩
  · rintro ⟨b, rest, hbs, hname, hhosts, hinv, hnet⟩
    refine ⟨b :: rest, hbs, ?_⟩
    simp only [if_neg hname, hhosts, ok_bind]
    rw [← hinv, ← netnameOf, ← hnet]

/-- The host blocks are made of entries that were read, and have names. -/
theorem parseFile_hosts {text : GoString} {f : File} (h : parseFile text = .ok f) :
    ∀ b ∈ f.hosts, b.name ≠ [] ∧ ∃ es : Entries, es.Parsed ∧ b = blockFromEntries es := by
  obtain ⟨first, rest, hscan, -, hhosts, -, -⟩ := parseFile_eq_ok.mp h
  intro b hb
  obtain ⟨es, hes, hblock⟩ := exists_of_mem_mapM hhosts hb
  obtain ⟨heq, hname⟩ := hostBlock_eq_ok.mp hblock
  exact ⟨hname, es, scanBlocks_parsed hscan es (List.mem_cons_of_mem _ hes), heq⟩

end Gsnet.Invite
