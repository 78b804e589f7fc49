import Gsnet.Invite.FileProof
import Gsnet.Proof.ConfigText

/-!
# Invitation files, written and read back

`Render` puts the fields of a block in an order of its own, drops nothing a block
has, and writes a separator before every host. What `ParseFile` can have put into
a block is said by `Block.Written`: values that a line determines, and other
entries whose keys have no field. Of such a block the lines are read back into
the same block, whatever order they once stood in.
-/

namespace Gsnet.Invite

open Go Config Lib

/-- What a line of the file can have given to a field: nothing, or a value. -/
def FieldValue (v : GoString) : Prop := v = [] ∨ PlainValue v

/-- A block that its lines determine. -/
structure Block.Written (b : Block) : Prop where
  name : FieldValue b.name
  address : FieldValue b.address
  connectTo : ∀ v ∈ b.connectTo, PlainValue v
  ifconfig : ∀ v ∈ b.ifconfig, PlainValue v
  route : ∀ v ∈ b.route, PlainValue v
  /-- An entry with a field of its own would be read into the field. -/
  other : Entries.Parsed b.other ∧ ∀ e ∈ b.other, isStructural e = false

/-! ## What is read is such a block -/

theorem plainValue_of_clean {e : Entry} (h : e.Clean) : PlainValue e.value :=
  ⟨h.value_ne_nil, h.value_trimmed, h.value_line⟩

theorem Block.Written.addEntry {b : Block} {e : Entry} (hb : b.Written) (he : e.Clean)
    (hk : Canonical e.key) : (addEntry b e).Written := by
  have hv := plainValue_of_clean he
  -- one more value at the end of a list of them
  have hsnoc : ∀ {l : List GoString}, (∀ v ∈ l, PlainValue v) →
      ∀ v ∈ l ++ [e.value], PlainValue v := by
    intro l hl v hm
    rcases List.mem_append.mp hm with hm | hm
    · exact hl v hm
    · rw [List.mem_singleton.mp hm]
      exact hv
  unfold Invite.addEntry
  split
  · exact ⟨.inr hv, hb.address, hb.connectTo, hb.ifconfig, hb.route, hb.other⟩
  rename_i h1
  split
  · exact ⟨hb.name, .inr hv, hb.connectTo, hb.ifconfig, hb.route, hb.other⟩
  rename_i h2
  split
  · exact ⟨hb.name, hb.address, hsnoc hb.connectTo, hb.ifconfig, hb.route, hb.other⟩
  rename_i h3
  split
  · exact ⟨hb.name, hb.address, hb.connectTo, hsnoc hb.ifconfig, hb.route, hb.other⟩
  rename_i h4
  split
  · exact ⟨hb.name, hb.address, hb.connectTo, hb.ifconfig, hsnoc hb.route, hb.other⟩
  rename_i h5
  split
  · exact hb
  rename_i h6
  have hfree : isStructural e = false := by
    simp [isStructural, structural, h1, h2, h3, h4, h5, h6]
  refine ⟨hb.name, hb.address, hb.connectTo, hb.ifconfig, hb.route, ?_, ?_⟩
  · intro e' he'
    rcases List.mem_append.mp he' with he' | he'
    · exact hb.other.1 e' he'
    · rw [List.mem_singleton.mp he']
      exact ⟨he, hk⟩
  · intro e' he'
    rcases List.mem_append.mp he' with he' | he'
    · exact hb.other.2 e' he'
    · rw [List.mem_singleton.mp he']
      exact hfree

/-- **Every block of entries that were read.** -/
theorem written_blockFromEntries {es : Entries} (h : es.Parsed) :
    (blockFromEntries es).Written := by
  have hfold : ∀ (es : Entries) (b : Block), es.Parsed → b.Written →
      (es.foldl addEntry b).Written := by
    intro es
    induction es with
    | nil => exact fun b _ hb => hb
    | cons e es ih =>
        intro b hes hb
        obtain ⟨he, hk⟩ := hes e List.mem_cons_self
        exact ih _ (fun x hx => hes x (List.mem_cons_of_mem e hx)) (hb.addEntry he hk)
  refine hfold es {} h ⟨.inl rfl, .inl rfl, ?_, ?_, ?_, ?_, ?_⟩ <;> exact fun x hx => by cases hx

/-! ## The lines of a block -/

/-- The entries a block is written as. -/
def blockEntries (netname : GoString) (b : Block) : Entries :=
  ⟨str "Name", b.name⟩ ::
    ((if netname ≠ [] then [⟨str "Netname", netname⟩] else [])
      ++ (b.connectTo.map (⟨str "ConnectTo", ·⟩)
      ++ ((if b.address ≠ [] then [⟨str "Address", b.address⟩] else [])
      ++ (b.ifconfig.map (⟨str "Ifconfig", ·⟩)
      ++ (b.route.map (⟨str "Route", ·⟩) ++ b.other)))))

theorem writeBlock_eq (f : File) (b : Block) (includeNetname : Bool) :
    writeBlock f b includeNetname
      = Entries.render (blockEntries (if includeNetname then f.netname else []) b) := by
  cases includeNetname <;> simp [writeBlock, blockEntries]

theorem parsed_known {c v : GoString} (hc : c ∈ canonical) (hv : PlainValue v) :
    Entry.Clean ⟨c, v⟩ ∧ Canonical c :=
  ⟨clean_of_known hc hv.ne_nil hv.trimmed hv.line, canonical_of_mem hc⟩

theorem parsed_blockEntries {netname : GoString} {b : Block} (hb : b.Written) (hname : b.name ≠ [])
    (hnet : FieldValue netname) : (blockEntries netname b).Parsed := by
  have hmap : ∀ {c : GoString} {l : List GoString}, c ∈ canonical → (∀ v ∈ l, PlainValue v) →
      ∀ e ∈ l.map (Entry.mk c), e.Clean ∧ Canonical e.key := by
    intro c l hc hl e he
    obtain ⟨v, hv, rfl⟩ := List.mem_map.mp he
    exact parsed_known hc (hl v hv)
  have hopt : ∀ {c v : GoString}, c ∈ canonical → FieldValue v →
      ∀ e ∈ (if v ≠ [] then [Entry.mk c v] else []), e.Clean ∧ Canonical e.key := by
    intro c v hc hv e he
    split at he
    · rename_i hne
      rw [List.mem_singleton.mp he]
      exact parsed_known hc (hv.resolve_left hne)
    · cases he
  intro e he
  simp only [blockEntries, List.mem_cons, List.mem_append] at he
  rcases he with rfl | he | he | he | he | he | he
  · exact parsed_known (by decide +kernel) (hb.name.resolve_left hname)
  · exact hopt (by decide +kernel) hnet e he
  · exact hmap (by decide +kernel) hb.connectTo e he
  · exact hopt (by decide +kernel) hb.address e he
  · exact hmap (by decide +kernel) hb.ifconfig e he
  · exact hmap (by decide +kernel) hb.route e he
  · exact hb.other.1 e he

/-! ### Read back -/

theorem addEntry_free {b : Block} {e : Entry} (h : isStructural e = false) :
    addEntry b e = { b with other := b.other ++ [e] } := by
  simp only [isStructural, structural, List.map_cons, List.map_nil, List.any_cons, List.any_nil,
    Bool.or_false, Bool.or_eq_false_iff] at h
  obtain ⟨h1, h2, h3, h4, h5, h6⟩ := h
  simp [addEntry, h1, h2, h3, h4, h5, h6]

example : (addEntry {} ⟨str "Port", str "655"⟩).other = [⟨str "Port", str "655"⟩] := by
  decide +kernel

theorem foldl_addEntry_free {es : Entries} (h : ∀ e ∈ es, isStructural e = false) (b : Block) :
    es.foldl addEntry b = { b with other := b.other ++ es } := by
  induction es generalizing b with
  | nil => simp
  | cons e es ih =>
      rw [List.foldl_cons, addEntry_free (h e List.mem_cons_self),
        ih fun x hx => h x (List.mem_cons_of_mem e hx)]
      simp

/-- The lines of a field that is a list: each adds its value at the end. -/
theorem foldl_addEntry_field {key : GoString} (add : Block → List GoString → Block)
    (hnil : ∀ b, add b [] = b) (hcons : ∀ b v l, add (addEntry b ⟨key, v⟩) l = add b (v :: l))
    (l : List GoString) (b : Block) : (l.map (Entry.mk key)).foldl addEntry b = add b l := by
  induction l generalizing b with
  | nil => exact (hnil b).symm
  | cons v l ih => rw [List.map_cons, List.foldl_cons, ih, hcons]

/-- **The lines of a block make the block.** -/
theorem blockFromEntries_blockEntries (netname : GoString) {b : Block} (hb : b.Written) :
    blockFromEntries (blockEntries netname b) = b := by
  have hname : ∀ b' : Block, addEntry b' ⟨str "Name", b.name⟩ = { b' with name := b.name } :=
    fun _ => rfl
  have hnet : ∀ b' : Block, (if netname ≠ [] then [Entry.mk (str "Netname") netname] else
      []).foldl addEntry b' = b' := by
    intro b'
    split <;> rfl
  have haddr : ∀ b' : Block, b'.address = [] →
      (if b.address ≠ [] then [Entry.mk (str "Address") b.address] else []).foldl addEntry b'
        = { b' with address := b.address } := by
    intro b' hb'
    split
    · rfl
    · rename_i hnil
      rw [not_not.mp hnil, ← hb']
      rfl
  have hconnect := @foldl_addEntry_field (str "ConnectTo")
    (fun b l => { b with connectTo := b.connectTo ++ l }) (by simp)
    (fun b v l => congrArg (fun c => { b with connectTo := c }) (List.append_assoc ..))
  have hifconfig := @foldl_addEntry_field (str "Ifconfig")
    (fun b l => { b with ifconfig := b.ifconfig ++ l }) (by simp)
    (fun b v l => congrArg (fun c => { b with ifconfig := c }) (List.append_assoc ..))
  have hroute := @foldl_addEntry_field (str "Route")
    (fun b l => { b with route := b.route ++ l }) (by simp)
    (fun b v l => congrArg (fun c => { b with route := c }) (List.append_assoc ..))
  simp only [blockFromEntries, blockEntries, List.foldl_cons, List.foldl_append, hname, hnet,
    hconnect, hifconfig, hroute, foldl_addEntry_free hb.other.2]
  rw [haddr _ rfl]
  simp

/-- What stands behind the name. -/
theorem mem_tail_blockEntries {netname : GoString} {b : Block} {e : Entry}
    (h : e ∈ (blockEntries netname b).tail) :
    e ∈ b.other ∨ (e.key = str "Netname" ∧ netname ≠ [])
      ∨ e.key ∈ ["ConnectTo", "Address", "Ifconfig", "Route"].map str := by
  have hmap : ∀ {c : GoString} {l : List GoString}, e ∈ l.map (Entry.mk c) → e.key = c := by
    intro c l he
    obtain ⟨v, -, rfl⟩ := List.mem_map.mp he
    rfl
  have hopt : ∀ {c v : GoString}, e ∈ (if v ≠ [] then [Entry.mk c v] else []) →
      e.key = c ∧ v ≠ [] := by
    intro c v he
    split at he
    · rename_i hne
      rw [List.mem_singleton.mp he]
      exact ⟨rfl, hne⟩
    · cases he
  simp only [blockEntries, List.tail_cons, List.mem_append] at h
  simp only [List.map_cons, List.map_nil, List.mem_cons, List.not_mem_nil, or_false]
  rcases h with h | h | h | h | h | h
  · exact .inr (.inl (hopt h))
  · exact .inr (.inr (.inl (hmap h)))
  · exact .inr (.inr (.inr (.inl (hopt h).1)))
  · exact .inr (.inr (.inr (.inr (.inl (hmap h)))))
  · exact .inr (.inr (.inr (.inr (.inr (hmap h)))))
  · exact .inl h

theorem equalFold_of_free {e : Entry} (h : isStructural e = false) :
    ∀ c ∈ structural, equalFold e.key c = false := by
  intro c hc
  rw [isStructural, List.any_eq_false] at h
  simpa using h c hc

/-- No entry behind the first is a name. -/
theorem isName_tail {netname : GoString} {b : Block} (hb : b.Written) :
    ∀ e ∈ (blockEntries netname b).tail, isName e = false := by
  have hknown : ∀ k ∈ ["ConnectTo", "Address", "Ifconfig", "Route", "Netname"].map str,
      equalFold k (str "Name") = false := by decide +kernel
  intro e he
  rcases mem_tail_blockEntries he with ho | ⟨hk, -⟩ | hk
  · exact equalFold_of_free (hb.other.2 e ho) _ (by decide +kernel)
  · rw [isName, hk]
    exact hknown _ (by simp)
  · refine hknown e.key ?_
    simp only [List.map_cons, List.map_nil, List.mem_cons, List.not_mem_nil, or_false] at hk ⊢
    tauto

/-- The network's name is found where it was put, and nowhere else. -/
theorem netnameOf_blockEntries {netname : GoString} {b : Block} (hb : b.Written) :
    netnameOf (blockEntries netname b) = netname := by
  have hname : equalFold (str "Name") (str "Netname") = false := by decide +kernel
  have hself : equalFold (str "Netname") (str "Netname") = true := by decide +kernel
  by_cases hnet : netname = []
  · have hnone : (blockEntries netname b).find? (fun e => equalFold e.key (str "Netname"))
        = none := by
      have hknown : ∀ k ∈ ["ConnectTo", "Address", "Ifconfig", "Route"].map str,
          equalFold k (str "Netname") = false := by decide +kernel
      refine List.find?_eq_none.mpr fun e he => ?_
      rcases List.mem_cons.mp he with rfl | he
      · simp [hname]
      rcases mem_tail_blockEntries he with ho | ⟨-, hne⟩ | hk
      · simp [equalFold_of_free (hb.other.2 e ho) (str "Netname") (by decide +kernel)]
      · exact absurd hnet hne
      · simp [hknown e.key hk]
    rw [netnameOf, hnone, hnet]
    rfl
  · simp [netnameOf, blockEntries, hnet, hname, hself]

/-! ## The blocks of a file -/

/-- The entries of a whole block, read where no block is open. -/
theorem foldl_advance_block {es : Entries} (hne : es ≠ [])
    (h : ∀ e ∈ es.tail, isName e = false) (bs : List Entries) :
    (es.map Token.entry).foldl advance (bs, []) = (bs, es) := by
  obtain ⟨e, es, rfl⟩ := List.exists_cons_of_ne_nil hne
  have hfirst : advance (bs, []) (.entry e) = (bs, [e]) := by simp [advance]
  have hentries : entriesOf (es.map Token.entry) = es := by
    rw [entriesOf, List.filterMap_map]
    exact List.filterMap_some
  rw [List.map_cons, List.foldl_cons, hfirst, foldl_advance_of_plain, hentries]
  · rfl
  · intro t ht
    obtain ⟨x, hx, rfl⟩ := List.mem_map.mp ht
    exact h x hx

/-- A block that is open, and more of them, each behind a separator. -/
theorem foldl_advance_hosts {more : List Entries}
    (h : ∀ es ∈ more, es ≠ [] ∧ ∀ e ∈ es.tail, isName e = false) (bs : List Entries)
    {cur : Entries} (hcur : cur ≠ []) :
    (flush ((more.flatMap fun es => Token.separator :: es.map Token.entry).foldl advance
      (bs, cur))).1 = bs ++ cur :: more := by
  induction more generalizing bs cur with
  | nil =>
      rw [List.flatMap_nil, List.foldl_nil, flush_of_ne_nil hcur]
  | cons es more ih =>
      obtain ⟨hne, hname⟩ := h es List.mem_cons_self
      have hsep : advance (bs, cur) .separator = (bs ++ [cur], []) := flush_of_ne_nil hcur
      rw [List.flatMap_cons, List.cons_append, List.foldl_cons, hsep, List.foldl_append,
        foldl_advance_block hne hname, ih (fun x hx => h x (List.mem_cons_of_mem es hx)) _ hne]
      simp

/-! ## The lines of a file -/

theorem tokens_parsed {es : Entries} (h : es.Parsed) (hshort : es.Short) :
    tokens (es.map Entry.line) = .ok (es.map Token.entry) := by
  have hcanon : es.map (fun e => Token.entry e.canon) = es.map Token.entry := by
    conv_rhs => rw [← h.map_canon]
    rw [List.map_map]
    rfl
  rw [tokens_lines (fun e he => (h e he).1) hshort, hcanon]

/-- The tokens of blocks behind separators, as they are written. -/
theorem tokens_hosts {more : List Entries} (h : ∀ es ∈ more, es.Parsed ∧ es.Short) :
    tokens (more.flatMap fun es => separator :: es.map Entry.line)
      = .ok (more.flatMap fun es => Token.separator :: es.map Token.entry) := by
  induction more with
  | nil => rfl
  | cons es more ih =>
      obtain ⟨hparsed, hshort⟩ := h es List.mem_cons_self
      have hblock : tokens (separator :: es.map Entry.line)
          = .ok (Token.separator :: es.map Token.entry) := by
        have happ := tokens_append [separator] (es.map Entry.line)
        rw [tokens_separator, tokens_parsed hparsed hshort] at happ
        exact happ
      rw [List.flatMap_cons, List.flatMap_cons, tokens_append, hblock,
        ih fun x hx => h x (List.mem_cons_of_mem es hx)]
      rfl

/-- The entries of the first block, and of the others. -/
def File.blocks (f : File) : Entries × List Entries :=
  (blockEntries f.netname f.invitee, f.hosts.map (blockEntries []))

/-- The lines a file is written in. -/
def File.lines (f : File) : List GoString :=
  f.blocks.1.map Entry.line ++ f.blocks.2.flatMap fun es => separator :: es.map Entry.line

theorem render_eq_lines (f : File) : f.render = f.lines.flatMap (· ++ [0x0A]) := by
  have hrender : ∀ es : Entries, es.render = (es.map Entry.line).flatMap (· ++ [0x0A]) := by
    intro es
    rw [Entries.render, List.flatMap_map]
  simp only [File.render, File.lines, File.blocks, writeBlock_eq, hrender, List.flatMap_append,
    List.flatMap_map, if_true, Bool.false_eq_true, if_false, List.flatMap_assoc, List.flatMap_cons]

/-- A file whose blocks their lines determine. -/
structure File.Written (f : File) : Prop where
  netname : FieldValue f.netname
  invitee : f.invitee.Written ∧ f.invitee.name ≠ []
  hosts : ∀ b ∈ f.hosts, b.Written ∧ b.name ≠ []

theorem File.Written.blocks {f : File} (h : f.Written) :
    f.blocks.1.Parsed ∧ ∀ es ∈ f.blocks.2, es.Parsed := by
  refine ⟨parsed_blockEntries h.invitee.1 h.invitee.2 h.netname, fun es hes => ?_⟩
  obtain ⟨b, hb, rfl⟩ := List.mem_map.mp hes
  exact parsed_blockEntries (h.hosts b hb).1 (h.hosts b hb).2 (.inl rfl)

theorem File.Written.rawLines {f : File} (h : f.Written) : Go.rawLines [] f.render = f.lines := by
  have hsep : (0x0A : UInt8) ∉ separator := by decide +kernel
  have hblock : ∀ {es : Entries}, es.Parsed → ∀ l ∈ es.map Entry.line, 0x0A ∉ l := by
    intro es hes l hl
    obtain ⟨e, he, rfl⟩ := List.mem_map.mp hl
    exact (hes e he).1.line_line
  have hall : ∀ l ∈ f.lines, 0x0A ∉ l := by
    intro l hl
    rcases List.mem_append.mp hl with hl | hl
    · exact hblock h.blocks.1 l hl
    · obtain ⟨es, hes, hl⟩ := List.mem_flatMap.mp hl
      rcases List.mem_cons.mp hl with rfl | hl
      · exact hsep
      · exact hblock (h.blocks.2 es hes) l hl
  have hraw := rawLines_lines hall []
  rw [List.append_nil] at hraw
  rw [render_eq_lines, hraw]
  simp [Go.rawLines]

/-- **A file that is written is read back**, if none of its lines is too long. -/
theorem File.Written.parseFile {f : File} (h : f.Written)
    (hshort : ∀ l ∈ Go.rawLines [] f.render, l.length ≤ maxLine) :
    Invite.parseFile f.render = .ok f := by
  have hlines : ∀ l ∈ f.lines, l.length ≤ maxLine := by rwa [← h.rawLines]
  have hfirst : f.blocks.1.Short := fun e he =>
    hlines e.line (List.mem_append_left _ (List.mem_map_of_mem he))
  have hmore : ∀ es ∈ f.blocks.2, es.Parsed ∧ es.Short := fun es hes =>
    ⟨h.blocks.2 es hes, fun e he => hlines e.line (List.mem_append_right _
      (List.mem_flatMap.mpr ⟨es, hes, List.mem_cons_of_mem _ (List.mem_map_of_mem he)⟩))⟩
  have htokens : tokens (Go.rawLines [] f.render) = .ok (f.blocks.1.map Token.entry
      ++ f.blocks.2.flatMap fun es => Token.separator :: es.map Token.entry) := by
    rw [h.rawLines, File.lines, tokens_append, tokens_parsed h.blocks.1 hfirst, tokens_hosts hmore]
    rfl
  have hstructure : ∀ {netname : GoString} {b : Block}, b.Written →
      blockEntries netname b ≠ [] ∧ ∀ e ∈ (blockEntries netname b).tail, isName e = false :=
    fun hb => ⟨List.cons_ne_nil _ _, isName_tail hb⟩
  have hscan : scanBlocks f.render = .ok (f.blocks.1 :: f.blocks.2) := by
    refine scanBlocks_eq_ok.mpr ⟨hshort, _, htokens, ?_⟩
    obtain ⟨hne, hname⟩ := @hstructure f.netname _ h.invitee.1
    rw [List.foldl_append]
    refine Eq.symm ((congrArg (fun st => (flush (List.foldl advance st _)).1)
      (foldl_advance_block hne hname [])).trans ?_)
    refine foldl_advance_hosts (fun es hes => ?_) [] hne
    obtain ⟨b, hb, rfl⟩ := List.mem_map.mp hes
    exact hstructure (h.hosts b hb).1
  have hinvitee : blockFromEntries f.blocks.1 = f.invitee :=
    blockFromEntries_blockEntries _ h.invitee.1
  refine parseFile_eq_ok.mpr ⟨f.blocks.1, f.blocks.2, hscan, ?_, ?_, hinvitee.symm,
    (netnameOf_blockEntries h.invitee.1).symm⟩
  · rw [hinvitee]
    exact h.invitee.2
  · rw [mapM_eq_ok, File.blocks, List.forall₂_map_left_iff]
    refine List.forall₂_same.mpr fun b hb => hostBlock_eq_ok.mpr ⟨?_, (h.hosts b hb).2⟩
    exact (blockFromEntries_blockEntries _ (h.hosts b hb).1).symm

/-! ## Files that were read -/

theorem written_of_parseFile {text : GoString} {f : File} (h : parseFile text = .ok f) :
    f.Written := by
  obtain ⟨first, rest, hscan, hname, hhosts, hinvitee, hnet⟩ := parseFile_eq_ok.mp h
  have hparsed := scanBlocks_parsed hscan
  refine ⟨?_, ?_, fun b hb => ?_⟩
  · rw [hnet, netnameOf]
    cases hf : first.find? fun e => equalFold e.key (str "Netname") with
    | none => exact .inl rfl
    | some e =>
        have he := hparsed first List.mem_cons_self e (List.mem_of_find?_eq_some hf)
        exact .inr (plainValue_of_clean he.1)
  · rw [hinvitee]
    exact ⟨written_blockFromEntries (hparsed first List.mem_cons_self), hname⟩
  · obtain ⟨hne, es, hes, rfl⟩ := parseFile_hosts h b hb
    exact ⟨written_blockFromEntries hes, hne⟩

/--
**Invitation files round-trip.** Whatever text was read, the file is read back from
what it is written as, with every field of every block.
-/
theorem parseFile_render_of_parseFile {text : GoString} {f : File} (h : parseFile text = .ok f)
    (hshort : ∀ l ∈ rawLines [] f.render, l.length ≤ maxLine) : parseFile f.render = .ok f :=
  (written_of_parseFile h).parseFile hshort

/-- Two hosts, the second begun by its name alone, and lines in no particular order. -/
def sampleText : GoString :=
  str "Name bob\nPort 655\nConnectTo = a\nnetname = vpn\n# --\n"
    ++ str "Name = a\nport = 1\nAddress = h\nName = c"

def sampleFile : File where
  netname := str "vpn"
  invitee :=
    { name := str "bob", connectTo := [str "a"], other := [⟨str "Port", str "655"⟩] }
  hosts :=
    [{ name := str "a", address := str "h", other := [⟨str "Port", str "1"⟩] },
      { name := str "c" }]

theorem parseFile_render_sample : parseFile sampleFile.render = .ok sampleFile :=
  @parseFile_render_of_parseFile sampleText sampleFile (by decide +kernel) (by decide +kernel)

end Gsnet.Invite
