import Gsnet.Cli.Invite
import Gsnet.Lib.Separated

/-!
# What the host file of an inviter is after a join

An invitation carries the entries of `hosts/<inviter>` in the block of the inviter,
and the parser of invitations gives some keys a meaning that the parser of
configuration files does not know. `Name` starts another block; `ConnectTo`,
`Ifconfig` and `Route` go into fields that `cmdJoin` does not write back, and
`Netname` goes nowhere. So the entries come through exactly if none of them has such
a key (`Carried`), if every line is short enough for the scanner, and if the name of
the network, which is a line of the invitation too, stays a single entry.
-/

namespace Gsnet.Cli

open Go Config Daemon Invite Lib

/-! ## The lines of an invitation -/

/-- The line of the network's name, which may be several. -/
def netText (netname : GoString) : GoString :=
  if netname = [] then [] else Entry.line ⟨str "Netname", netname⟩ ++ [0x0A]

def netLines (netname : GoString) : List GoString := rawLines [] (netText netname)

/-- The entries of the block about the invitee, but for the name of the network. -/
def inviteeEntries (invitee selfName : GoString) : Entries :=
  [⟨str "Name", invitee⟩, ⟨str "ConnectTo", selfName⟩]

/-- The entries of the block about the inviter. -/
def inviterEntries (selfName addr : GoString) (es : Entries) : Entries :=
  ⟨str "Name", selfName⟩ :: ⟨str "Address", addr⟩ :: es

section Lines

variable {netname invitee selfName addr : GoString} {es : Entries}

theorem render_invitation (haddr : addr ≠ []) :
    (invitation netname invitee selfName addr es).render
      = Entries.render [⟨str "Name", invitee⟩] ++ netText netname
        ++ Entries.render [⟨str "ConnectTo", selfName⟩]
        ++ (separator ++ 0x0A :: Entries.render (inviterEntries selfName addr es)) := by
  have hnet : Entries.render (if netname ≠ [] then [⟨str "Netname", netname⟩] else [])
      = netText netname := by
    unfold netText
    by_cases h : netname = []
    · simp [h, Entries.render]
    · simp [h, Entries.render]
  simp only [invitation, File.render, writeBlock, ← hnet, Entries.render, inviterEntries]
  simp [haddr]

theorem rawLines_netText (t : GoString) :
    rawLines [] (netText netname ++ t) = netLines netname ++ rawLines [] t := by
  unfold netLines netText
  split
  · rfl
  · rw [List.append_assoc, List.singleton_append]
    exact rawLines_append_text [] _ t

theorem rawLines_invitation (haddr : addr ≠ [])
    (h₁ : ∀ e ∈ inviteeEntries invitee selfName, e.Clean)
    (h₂ : ∀ e ∈ inviterEntries selfName addr es, e.Clean) :
    rawLines [] (invitation netname invitee selfName addr es).render
      = [Entry.line ⟨str "Name", invitee⟩] ++ netLines netname
        ++ [Entry.line ⟨str "ConnectTo", selfName⟩] ++ [separator]
        ++ (inviterEntries selfName addr es).map Entry.line := by
  have hname : ∀ e ∈ [(⟨str "Name", invitee⟩ : Entry)], 0x0A ∉ e.line := fun e he =>
    (h₁ e (by rw [List.mem_singleton.mp he]; simp [inviteeEntries])).line_line
  have hconn : ∀ e ∈ [(⟨str "ConnectTo", selfName⟩ : Entry)], 0x0A ∉ e.line := fun e he =>
    (h₁ e (by rw [List.mem_singleton.mp he]; simp [inviteeEntries])).line_line
  have hhost := rawLines_render (fun e he => (h₂ e he).line_line) []
  rw [List.append_nil] at hhost
  rw [render_invitation haddr, List.append_assoc, List.append_assoc, rawLines_render hname,
    rawLines_netText, rawLines_render hconn, rawLines_append (by decide +kernel), hhost]
  simp [rawLines]

/-- The end of the block about the invitee. -/
def connectTokens (selfName : GoString) : List Token :=
  [.entry ⟨str "ConnectTo", selfName⟩, .separator]

/-- The tokens of the block about the invitee, around those of the network's name. -/
def inviteeTokens (net : List Token) (invitee selfName : GoString) : List Token :=
  .entry ⟨str "Name", invitee⟩ :: (net ++ connectTokens selfName)

/-- The tokens of an invitation. -/
def invitationTokens (net : List Token) (invitee selfName addr : GoString) (es : Entries) :
    List Token :=
  inviteeTokens net invitee selfName ++ (inviterEntries selfName addr es).map .entry

/-- The two blocks that an invitation is meant to have are clean and their keys known or read. -/
structure Inviting (invitee selfName addr : GoString) (es : Entries) : Prop where
  invitee : Entries.Parsed (inviteeEntries invitee selfName)
  inviter : Entries.Parsed (inviterEntries selfName addr es)

theorem tokens_parsed {es : Entries} (h : es.Parsed) (hshort : es.Short) :
    tokens (es.map Entry.line) = .ok (es.map .entry) := by
  have hmap : (es.map fun e => Token.entry e.canon) = (es.map Entry.canon).map .entry :=
    (List.map_map ..).symm
  rw [tokens_lines (fun e he => (h e he).1) hshort, hmap, h.map_canon]

theorem Inviting.addr_ne_nil (h : Inviting invitee selfName addr es) : addr ≠ [] :=
  (h.inviter ⟨str "Address", addr⟩ (by simp [inviterEntries])).1.value_ne_nil

theorem Inviting.clean (h : Inviting invitee selfName addr es) :
    (∀ e ∈ inviteeEntries invitee selfName, e.Clean)
      ∧ ∀ e ∈ inviterEntries selfName addr es, e.Clean :=
  ⟨fun e he => (h.invitee e he).1, fun e he => (h.inviter e he).1⟩

theorem tokens_invitation (h : Inviting invitee selfName addr es)
    (h₁ : (inviteeEntries invitee selfName).Short)
    (h₂ : (inviterEntries selfName addr es).Short) :
    tokens (rawLines [] (invitation netname invitee selfName addr es).render)
      = (tokens (netLines netname)).map (invitationTokens · invitee selfName addr es) := by
  have hone : ∀ e ∈ inviteeEntries invitee selfName, tokens [e.line] = .ok [.entry e] :=
    fun e he => @tokens_parsed [e]
      (fun e' he' => h.invitee e' (by rwa [List.mem_singleton.mp he']))
      (fun e' he' => h₁ e' (by rwa [List.mem_singleton.mp he']))
  have hname := hone ⟨str "Name", invitee⟩ (by simp [inviteeEntries])
  have hconn := hone ⟨str "ConnectTo", selfName⟩ (by simp [inviteeEntries])
  rw [rawLines_invitation h.addr_ne_nil h.clean.1 h.clean.2, tokens_append, tokens_append,
    tokens_append, tokens_append, hname, hconn, tokens_separator, tokens_parsed h.inviter h₂]
  cases tokens (netLines netname) with
  | error e => rfl
  | ok net => simp [invitationTokens, inviteeTokens, connectTokens, Except.map, bind, Except.bind]

/-- **How an invitation is taken apart.** -/
theorem scanBlocks_invitation (h : Inviting invitee selfName addr es) {bs : List Entries} :
    scanBlocks (invitation netname invitee selfName addr es).render = .ok bs ↔
      (inviteeEntries invitee selfName).Short ∧ (inviterEntries selfName addr es).Short
        ∧ (∀ l ∈ netLines netname, l.length ≤ maxLine)
        ∧ ∃ net, tokens (netLines netname) = .ok net
          ∧ bs = (flush ((invitationTokens net invitee selfName addr es).foldl advance
              ([], []))).1 := by
  have hlen : (∀ l ∈ rawLines [] (invitation netname invitee selfName addr es).render,
        l.length ≤ maxLine)
      ↔ (inviteeEntries invitee selfName).Short ∧ (inviterEntries selfName addr es).Short
        ∧ ∀ l ∈ netLines netname, l.length ≤ maxLine := by
    have hsep : separator.length ≤ maxLine := by decide +kernel
    rw [rawLines_invitation h.addr_ne_nil h.clean.1 h.clean.2]
    simp only [List.forall_mem_append, List.forall_mem_singleton, List.forall_mem_map,
      Entries.Short, inviteeEntries, List.forall_mem_cons]
    tauto
  rw [scanBlocks_eq_ok, hlen]
  constructor
  · rintro ⟨⟨h₁, h₂, hnet⟩, ts, hts, rfl⟩
    rw [tokens_invitation h h₁ h₂] at hts
    cases hn : tokens (netLines netname) with
    | error e =>
        rw [hn] at hts
        cases hts
    | ok net =>
        rw [hn] at hts
        cases hts
        exact ⟨h₁, h₂, hnet, net, rfl, rfl⟩
  · rintro ⟨h₁, h₂, hnet, net, hn, rfl⟩
    refine ⟨⟨h₁, h₂, hnet⟩, _, ?_, rfl⟩
    rw [tokens_invitation h h₁ h₂, hn]
    rfl

end Lines

/-! ## The blocks of an invitation -/

section Blocks

variable {invitee selfName addr : GoString} {es : Entries} {net : List Token}

/-- The entries before the first that starts a block. -/
def beforeName (es : Entries) : Entries := es.takeWhile fun e => !isName e

theorem isName_connectTo (v : GoString) : isName ⟨str "ConnectTo", v⟩ = false := by
  simp only [isName]
  decide

theorem isName_address (v : GoString) : isName ⟨str "Address", v⟩ = false := by
  simp only [isName]
  decide

/-- The block about the invitee. -/
def inviteeBlock (net : List Token) (invitee selfName : GoString) : Entries :=
  ⟨str "Name", invitee⟩ :: entriesOf net ++ [⟨str "ConnectTo", selfName⟩]

theorem advance_invitee (invitee : GoString) :
    advance ([], []) (.entry ⟨str "Name", invitee⟩) = ([], [⟨str "Name", invitee⟩]) := by
  simp [advance]

/-- The scan up to the block of the inviter. -/
theorem foldl_advance_invitee (h : ∀ t ∈ net, t.starts = false) :
    (inviteeTokens net invitee selfName).foldl advance ([], [])
      = ([inviteeBlock net invitee selfName], []) := by
  rw [inviteeTokens, List.foldl_cons, advance_invitee, List.foldl_append, foldl_advance_of_plain h]
  simp [connectTokens, advance, isName_connectTo, flush, inviteeBlock]

/-- And through that block, up to the next. -/
theorem foldl_advance_inviter (bs : List Entries) (selfName addr : GoString) (es : Entries) :
    ((inviterEntries selfName addr (beforeName es)).map Token.entry).foldl advance (bs, [])
      = (bs, inviterEntries selfName addr (beforeName es)) := by
  have hplain : ∀ t ∈ (⟨str "Address", addr⟩ :: beforeName es).map Token.entry,
      t.starts = false := by
    intro t ht
    obtain ⟨e, he, rfl⟩ := List.mem_map.mp ht
    rcases List.mem_cons.mp he with rfl | he
    · exact isName_address addr
    · have hn := List.mem_takeWhile_imp he
      rwa [Bool.not_eq_true'] at hn
  have hname : advance (bs, []) (.entry ⟨str "Name", selfName⟩)
      = (bs, [⟨str "Name", selfName⟩]) := by
    simp [advance]
  rw [inviterEntries, List.map_cons, List.foldl_cons, hname, foldl_advance_of_plain hplain]
  simp [entriesOf, List.filterMap_map]

/-- If the name of the network is a plain entry, the first two blocks are those that were meant. -/
theorem blocks_of_plain (h : ∀ t ∈ net, t.starts = false) :
    [inviteeBlock net invitee selfName, inviterEntries selfName addr (beforeName es)]
      <+: (flush ((invitationTokens net invitee selfName addr es).foldl advance ([], []))).1 := by
  have hsplit : inviterEntries selfName addr es
      = inviterEntries selfName addr (beforeName es) ++ es.dropWhile fun e => !isName e := by
    simp [inviterEntries, beforeName]
  rw [invitationTokens, hsplit, List.map_append, List.foldl_append, foldl_advance_invitee h,
    List.foldl_append, foldl_advance_inviter]
  have hne : inviterEntries selfName addr (beforeName es) ≠ [] := by simp [inviterEntries]
  cases hrest : es.dropWhile fun e => !isName e with
  | nil =>
      rw [List.map_nil, List.foldl_nil, flush_of_ne_nil hne]
      exact List.prefix_rfl
  | cons e rest =>
      -- the next name ends the block of the inviter
      have he : isName e = true := by
        have hhead := List.head?_dropWhile_not (fun e => !isName e) es
        rw [hrest] at hhead
        simpa using hhead
      rw [List.map_cons, List.foldl_cons]
      refine List.IsPrefix.trans ?_ ((foldl_advance_blocks _ _).trans (flush_blocks _))
      have hadv := @advance_of_starts ([inviteeBlock net invitee selfName],
        inviterEntries selfName addr (beforeName es)) (.entry e) hne he
      rw [hadv]
      exact List.prefix_rfl

/-- Without another name the two blocks are all there is. -/
theorem blocks_eq (h : ∀ t ∈ net, t.starts = false) (hes : ∀ e ∈ es, isName e = false) :
    (flush ((invitationTokens net invitee selfName addr es).foldl advance ([], []))).1
      = [inviteeBlock net invitee selfName, inviterEntries selfName addr es] := by
  have hall : beforeName es = es :=
    List.takeWhile_eq_self_iff.mpr fun e he => by simpa using hes e he
  have hinviter := foldl_advance_inviter [inviteeBlock net invitee selfName] selfName addr es
  rw [hall] at hinviter
  rw [invitationTokens, List.foldl_append, foldl_advance_invitee h, hinviter,
    flush_of_ne_nil (by simp [inviterEntries])]
  rfl

/-- The block about the invitee is named after the invitee. -/
theorem name_inviteeBlock (h : ∀ t ∈ net, t.starts = false) :
    (blockFromEntries (inviteeBlock net invitee selfName)).name = invitee := by
  have hnone :
      Entries.getAll (entriesOf net ++ [⟨str "ConnectTo", selfName⟩]) (str "Name") = [] := by
    refine getAll_eq_nil fun e he => ?_
    rcases List.mem_append.mp he with he | he
    · exact h (.entry e) (mem_entriesOf he)
    · rw [List.mem_singleton.mp he]
      exact isName_connectTo selfName
  have hself : equalFold (str "Name") (str "Name") = true := by decide
  rw [(blockFromEntries_spec _).1, inviteeBlock, List.cons_append, getAll_cons, hnone]
  simp [hself]

/-- The block about the invitee is finished before that of the inviter begins. -/
theorem length_connectTokens (net : List Token) (selfName : GoString) (st : Scan) :
    st.1.length + 1 ≤ ((net ++ connectTokens selfName).foldl advance st).1.length := by
  have hblocks := (foldl_advance_blocks net st).length_le
  have hconn := (advance_blocks (net.foldl advance st)
    (.entry ⟨str "ConnectTo", selfName⟩)).length_le
  rw [List.foldl_append, connectTokens, List.foldl_cons, List.foldl_cons, List.foldl_nil, advance,
    flush_of_ne_nil (advance_entry_ne_nil _ _), List.length_append, List.length_singleton]
  omega

/-- A start in the network's name finishes one more. -/
theorem length_inviteeTokens (hn : ¬ ∀ t ∈ net, t.starts = false) :
    2 ≤ ((inviteeTokens net invitee selfName).foldl advance ([], [])).1.length := by
  obtain ⟨plain, t, rest, rfl, ht, hplain⟩ := exists_first hn
  have hadv := @advance_of_starts ([], [⟨str "Name", invitee⟩] ++ entriesOf plain) t (by simp) ht
  have hsplit : (plain ++ t :: rest) ++ connectTokens selfName
      = plain ++ t :: (rest ++ connectTokens selfName) := by simp
  rw [inviteeTokens, hsplit, List.foldl_cons, advance_invitee, List.foldl_append,
    foldl_advance_of_plain hplain, List.foldl_cons]
  refine le_trans ?_ (length_connectTokens rest selfName _)
  rw [hadv]
  simp

/-- There are two blocks only if neither the network's name nor an entry starts another. -/
theorem blocks_length
    (h : (flush ((invitationTokens net invitee selfName addr es).foldl advance ([], []))).1.length
      = 2) : (∀ t ∈ net, t.starts = false) ∧ ∀ e ∈ es, isName e = false := by
  rw [invitationTokens, List.foldl_append] at h
  constructor
  · by_contra hn
    have hend := @length_flush_entries
      ((inviteeTokens net invitee selfName).foldl advance ([], []))
      (inviterEntries selfName addr es) (.inr (by simp [inviterEntries]))
    have hfirst := @length_inviteeTokens invitee selfName net hn
    omega
  · by_contra hn
    obtain ⟨plain, e, rest, rfl, he, -⟩ := exists_first hn
    have hsplit : inviterEntries selfName addr (plain ++ e :: rest)
        = inviterEntries selfName addr plain ++ e :: rest := by simp [inviterEntries]
    have hfirst := length_connectTokens net selfName ([], [⟨str "Name", invitee⟩])
    rw [hsplit, List.map_append, List.foldl_append, inviteeTokens, List.foldl_cons,
      advance_invitee] at h
    generalize (net ++ connectTokens selfName).foldl advance ([], [⟨str "Name", invitee⟩]) = st
      at h hfirst
    have hblocks := (foldl_advance_blocks ((inviterEntries selfName addr plain).map .entry)
      st).length_le
    have hend := length_flush_start rest (@foldl_entries_ne_nil st
      (inviterEntries selfName addr plain) (.inr (by simp [inviterEntries]))) he
    simp only [List.length_nil] at hfirst
    omega

end Blocks

/-! ## The name of the network -/

/-- A line that neither ends a block nor stops the parser. -/
def Harmless (l : GoString) : Prop :=
  trimSpace (dropCR l) = [] ∨ (trimSpace (dropCR l)).head? ≠ some 0x23
    ∧ ∃ e, parseLine (trimSpace (dropCR l)) = .ok e ∧ isName e = false

/-- The name of the network is one entry of the first block, or some that do no harm there. -/
def PlainNetname (netname : GoString) : Prop :=
  ∀ l ∈ netLines netname, l.length ≤ maxLine ∧ Harmless l

theorem harmless_iff {l : GoString} (hn : 0x0A ∉ l) (hlen : l.length ≤ maxLine) :
    Harmless l ↔ ∃ t, token (trimSpace (dropCR l)) = .ok t ∧ t.starts = false := by
  have ht := trimmed_trimSpace (dropCR l)
  have hline : 0x0A ∉ trimSpace (dropCR l) := fun hm =>
    hn (mem_of_mem_dropCR (mem_of_mem_trimSpace hm))
  have hshort : (trimSpace (dropCR l)).length ≤ maxLine :=
    ((length_trimSpace_le _).trans (length_dropCR_le l)).trans hlen
  unfold Harmless
  generalize trimSpace (dropCR l) = line at ht hline hshort
  unfold token
  by_cases hnil : line = []
  · rw [if_pos hnil]
    exact ⟨fun _ => ⟨.skip, rfl, rfl⟩, fun _ => .inl hnil⟩
  rw [if_neg hnil, or_iff_right hnil]
  by_cases hhead : line.head? = some 0x23
  · rw [if_pos hhead]
    refine ⟨fun h => absurd hhead h.1, ?_⟩
    rintro ⟨t, ht, hs⟩
    cases ht
    cases hs
  rw [if_neg hhead, and_iff_right hhead]
  have hblank : isBlank line = false := by simp [isBlank, hnil, hhead]
  constructor
  · rintro ⟨e, he, hname⟩
    refine ⟨.entry e, ?_, hname⟩
    rw [(parseConfigLine_eq_ok ht hline hshort hblank).mpr he]
    rfl
  · rintro ⟨t, ht', hs⟩
    cases hp : parseConfigLine line with
    | error err =>
        rw [hp] at ht'
        cases ht'
    | ok e =>
        rw [hp] at ht'
        cases ht'
        exact ⟨e, (parseConfigLine_eq_ok ht hline hshort hblank).mp hp, hs⟩

theorem plainNetname_iff (netname : GoString) :
    PlainNetname netname ↔ (∀ l ∈ netLines netname, l.length ≤ maxLine)
      ∧ ∃ net, tokens (netLines netname) = .ok net ∧ ∀ t ∈ net, t.starts = false := by
  have hline : ∀ l ∈ netLines netname, 0x0A ∉ l := notMem_rawLines List.not_mem_nil
  unfold PlainNetname
  rw [forall₂_and]
  refine and_congr_right fun hlen => ?_
  rw [tokens, List.map_map, exists_mapM_iff, List.forall_mem_map]
  exact forall₂_congr fun l hl => harmless_iff (hline l hl) (hlen l hl)

/-! ## The block of the inviter -/

/-- The block that the joiner reads back. -/
def readBack (selfName addr : GoString) (es : Entries) : Block :=
  blockFromEntries (inviterEntries selfName addr es)

section Block

variable {selfName addr : GoString} {es : Entries}

theorem other_readBack :
    (readBack selfName addr es).other = es.filter fun e => !isStructural e := by
  have hname : isStructural ⟨str "Name", selfName⟩ = true := by
    simp only [isStructural]
    decide
  have haddr : isStructural ⟨str "Address", addr⟩ = true := by
    simp only [isStructural]
    decide
  rw [readBack, (blockFromEntries_spec _).2.2, inviterEntries]
  simp [hname, haddr]

theorem name_readBack (h : ∀ e ∈ es, isName e = false) :
    (readBack selfName addr es).name = selfName := by
  have hnone : es.getAll (str "Name") = [] := getAll_eq_nil h
  have hself : equalFold (str "Name") (str "Name") = true := by decide
  have haddr : equalFold (str "Address") (str "Name") = false := by decide
  rw [readBack, (blockFromEntries_spec _).1, inviterEntries, getAll_cons, getAll_cons, hnone]
  simp [hself, haddr]

/-- The address of the inviter is the last that stands in the block. -/
theorem address_readBack :
    (readBack selfName addr es).address = (es.getAll (str "Address")).getLastD addr := by
  have hself : equalFold (str "Name") (str "Address") = false := by decide
  have haddr : equalFold (str "Address") (str "Address") = true := by decide
  rw [readBack, (blockFromEntries_spec _).2.1, inviterEntries, getAll_cons, getAll_cons]
  simp only [hself, haddr, Bool.false_eq_true, if_false, if_true, List.getLastD_cons]

/-- The address of a block is that of an entry whose line is no shorter than the one written. -/
theorem exists_address {es : Entries} (h : (blockFromEntries es).address ≠ []) :
    ∃ e ∈ es, e.value = (blockFromEntries es).address
      ∧ (str "Address").length ≤ e.key.length := by
  rw [(blockFromEntries_spec es).2.1] at h ⊢
  rcases List.mem_cons.mp (List.getLastD_mem_cons (l := es.getAll (str "Address")) (a := [])) with
    heq | hmem
  · exact absurd heq h
  · obtain ⟨e, he, hval⟩ := List.mem_map.mp hmem
    obtain ⟨he, hkey⟩ := List.mem_filter.mp he
    rw [equalFold, beq_iff_eq] at hkey
    refine ⟨e, he, hval, ?_⟩
    calc (str "Address").length = (foldName (str "Address")).length := by decide
      _ = (foldName e.key).length := by rw [hkey]
      _ ≤ e.key.length := length_foldName_le e.key

/-- What is written for a block: its address, and entries that were read. -/
theorem mem_inviterHost {e : Entry} (he : e ∈ inviterHost (blockFromEntries es)) :
    e ∈ es ∨ (blockFromEntries es).address ≠ []
      ∧ e = ⟨str "Address", (blockFromEntries es).address⟩ := by
  unfold inviterHost at he
  rcases List.mem_append.mp he with he | he
  · split at he
    · rename_i hne
      exact .inr ⟨hne, List.mem_singleton.mp he⟩
    · cases he
  · rw [(blockFromEntries_spec es).2.2] at he
    exact .inl (List.mem_of_mem_filter he)

theorem parsed_inviterHost (h : es.Parsed) : (inviterHost (blockFromEntries es)).Parsed := by
  have hknown : str "Address" ∈ canonical := by decide +kernel
  intro e he
  rcases mem_inviterHost he with he | ⟨hne, rfl⟩
  · exact h e he
  · obtain ⟨e, he, hval, -⟩ := exists_address hne
    have hclean := (h e he).1
    rw [← hval]
    exact ⟨clean_of_known hknown hclean.value_ne_nil hclean.value_trimmed hclean.value_line,
      canonical_of_mem hknown⟩

theorem short_inviterHost (h : es.Short) : (inviterHost (blockFromEntries es)).Short := by
  intro e he
  rcases mem_inviterHost he with he | ⟨hne, rfl⟩
  · exact h e he
  · obtain ⟨e, he, hval, hlen⟩ := exists_address hne
    have hline := h e he
    rw [← hval]
    simp only [Entry.line, List.length_append] at hline ⊢
    omega

/-- **The host file of the inviter is read as it was written**, unless a line is too long. -/
theorem parse_inviterHost {new : Entries} (h : es.Parsed) :
    Config.parse (inviterHost (blockFromEntries es)).render = .ok new
      ↔ (inviterHost (blockFromEntries es)).Short ∧ new = inviterHost (blockFromEntries es) := by
  have hparsed := parsed_inviterHost h
  rw [parse_render_iff fun e he => (hparsed e he).1, hparsed.map_canon]

theorem inviterHost_readBack (h : (inviterEntries selfName addr es).Parsed) :
    inviterHost (readBack selfName addr es)
      = ⟨str "Address", (readBack selfName addr es).address⟩
        :: es.filter fun e => !isStructural e := by
  have hne : (readBack selfName addr es).address ≠ [] := by
    rw [address_readBack]
    rcases List.mem_cons.mp
      (List.getLastD_mem_cons (l := es.getAll (str "Address")) (a := addr)) with heq | hmem
    · rw [heq]
      exact (h ⟨str "Address", addr⟩ (by simp [inviterEntries])).1.value_ne_nil
    · obtain ⟨e, he, hval⟩ := List.mem_map.mp hmem
      rw [← hval]
      exact (h e (by simp [inviterEntries, List.mem_of_mem_filter he])).1.value_ne_nil
  rw [inviterHost, if_pos hne, other_readBack]
  rfl

end Block

/-! ## What comes through -/

/-- The keys that do not come through an invitation. -/
def lostKeys : List GoString := ["Name", "Netname", "ConnectTo", "Ifconfig", "Route"].map str

/-- No entry has such a key. -/
def Carried (es : Entries) : Prop := ∀ e ∈ es, ∀ key ∈ lostKeys, equalFold e.key key = false

/-- The keys that are lost are those with a field, but for the address. -/
theorem lostKeys_spec : ∀ key ∈ lostKeys, key ∈ structural ∧ equalFold key (str "Address") = false
    ∧ ∀ b ∈ key, b < 0x80 := by
  decide +kernel

theorem structural_cases : ∀ key ∈ structural, key = str "Address" ∨ key ∈ lostKeys := by
  decide +kernel

instance (es : Entries) : Decidable (Carried es) := inferInstanceAs (Decidable (∀ e ∈ es, _))

/-- What the host file of the inviter is to be for the joiner. -/
def Survives [CaseFold] (invitation selfName : GoString) (es : Entries) : Prop :=
  ∃ f b, Invite.parseFile invitation = .ok f ∧ f.hosts = [b] ∧ b.name = selfName
    ∧ ∃ new, Config.parse (inviterHost b).render = .ok new
      ∧ ∀ k, ¬ EqualFold k (str "Address") → new.getAllOf k = es.getAllOf k

section Survival

variable [CaseFold] {netname invitee selfName addr : GoString} {es : Entries}

/-- Under other keys than the address, the new host file has what has no field of its own. -/
theorem getAllOf_inviterHost (h : (inviterEntries selfName addr es).Parsed) {k : GoString}
    (hk : ¬ EqualFold k (str "Address")) :
    (inviterHost (readBack selfName addr es)).getAllOf k
      = Entries.getAllOf (es.filter fun e => !isStructural e) k := by
  rw [inviterHost_readBack h, ← List.singleton_append, getAllOf_append, getAllOf_single,
    if_neg fun he => hk he.symm, List.nil_append]

/-- **That is everything exactly if no key is lost.** -/
theorem carried_iff :
    (∀ k, ¬ EqualFold k (str "Address") →
        Entries.getAllOf (es.filter fun e => !isStructural e) k = es.getAllOf k)
      ↔ Carried es := by
  have hascii : ∀ b ∈ str "Address", b < 0x80 := by decide +kernel
  constructor
  · intro h e he key hkey
    by_contra hn
    rw [Bool.not_eq_false] at hn
    obtain ⟨hstruct, haddr, hlit⟩ := lostKeys_spec key hkey
    have hk : ¬ EqualFold key (str "Address") := by
      rw [equalFold_iff hascii, haddr]
      simp
    -- the value under this key would have to come from an entry that was kept
    have hmem : e.value ∈ es.getAllOf key :=
      mem_getAllOf.mpr ⟨e, he, (equalFold_iff hlit e.key).mpr hn, rfl⟩
    rw [← h key hk] at hmem
    obtain ⟨e', he', hkey', -⟩ := mem_getAllOf.mp hmem
    have hother := (List.mem_filter.mp he').2
    rw [isStructural, List.any_eq_true.mpr ⟨key, hstruct, (equalFold_iff hlit e'.key).mp hkey'⟩]
      at hother
    cases hother
  · intro h k hk
    unfold Entries.getAllOf
    rw [List.filter_filter]
    congr 1
    refine List.filter_congr fun e he => ?_
    by_cases hek : EqualFold e.key k
    · have hother : isStructural e = false := by
        by_contra hn
        rw [Bool.not_eq_false, isStructural, List.any_eq_true] at hn
        obtain ⟨key, hkey, hfold⟩ := hn
        rcases structural_cases key hkey with rfl | hlost
        · exact hk (hek.symm.trans ((equalFold_iff hascii e.key).mpr hfold))
        · rw [h e he key hlost] at hfold
          cases hfold
      simp [hek, hother]
    · simp [hek]

/-- **An invitation carries the host file of the inviter** exactly under these conditions. -/
theorem survives_iff (h : Inviting invitee selfName addr es) :
    Survives (invitation netname invitee selfName addr es).render selfName es
      ↔ Carried es ∧ (inviteeEntries invitee selfName).Short
        ∧ (inviterEntries selfName addr es).Short ∧ PlainNetname netname := by
  constructor
  · rintro ⟨f, b, hparse, hhosts, -, new, hnew, hget⟩
    obtain ⟨first, rest, hscan, -, hmap, -, -⟩ := parseFile_eq_ok.mp hparse
    obtain ⟨h₁, h₂, hlen, net, hnet, hbs⟩ := (scanBlocks_invitation h).mp hscan
    rw [hhosts, mapM_eq_ok] at hmap
    have htwo : (first :: rest).length = 2 := by
      rw [List.length_cons, hmap.length_eq]
      rfl
    obtain ⟨hplain, hnoname⟩ := blocks_length (hbs ▸ htwo)
    rw [blocks_eq hplain hnoname] at hbs
    cases hbs
    have hb := List.forall₂_cons.mp hmap |>.1
    obtain ⟨rfl, -⟩ := hostBlock_eq_ok.mp hb
    obtain ⟨-, rfl⟩ := (parse_inviterHost h.inviter).mp hnew
    rw [← readBack] at hget
    refine ⟨carried_iff.mp fun k hk => ?_, h₁, h₂,
      (plainNetname_iff netname).mpr ⟨hlen, net, hnet, hplain⟩⟩
    rw [← getAllOf_inviterHost h.inviter hk, hget k hk]
  · rintro ⟨hcarried, h₁, h₂, hnetname⟩
    obtain ⟨hlen, net, hnet, hplain⟩ := (plainNetname_iff netname).mp hnetname
    have hnoname : ∀ e ∈ es, isName e = false := fun e he =>
      hcarried e he (str "Name") (by simp [lostKeys])
    have hscan := (scanBlocks_invitation h).mpr ⟨h₁, h₂, hlen, net, hnet, rfl⟩
    rw [blocks_eq hplain hnoname] at hscan
    have hself := (h.invitee ⟨str "ConnectTo", selfName⟩ (by simp [inviteeEntries])).1.value_ne_nil
    have hinv := (h.invitee ⟨str "Name", invitee⟩ (by simp [inviteeEntries])).1.value_ne_nil
    have hname := @name_readBack selfName addr es hnoname
    refine ⟨⟨netnameOf (inviteeBlock net invitee selfName),
        blockFromEntries (inviteeBlock net invitee selfName), [readBack selfName addr es]⟩,
      readBack selfName addr es, ?_, rfl, hname, _,
      (parse_inviterHost h.inviter).mpr ⟨short_inviterHost h₂, rfl⟩, fun k hk => ?_⟩
    · refine parseFile_eq_ok.mpr ⟨_, _, hscan, ?_, mapM_eq_ok.mpr (.cons ?_ .nil), rfl, rfl⟩
      · rwa [name_inviteeBlock hplain]
      · exact hostBlock_eq_ok.mpr ⟨rfl, by rwa [hname]⟩
    · rw [← readBack, getAllOf_inviterHost h.inviter hk]
      exact carried_iff.mpr hcarried k hk

end Survival

/-! ## From the command to the invitation -/

/-- A value that was read under some key is as good under a known one. -/
theorem known_of_getFirst {conf : Entries} {key value c : GoString} (h : conf.Parsed)
    (hget : conf.getFirst key = some value) (hc : c ∈ canonical) :
    Entry.Clean ⟨c, value⟩ ∧ Canonical c := by
  obtain ⟨e, he, -, rfl⟩ := mem_of_getFirst hget
  have hclean := (h e he).1
  exact ⟨clean_of_known hc hclean.value_ne_nil hclean.value_trimmed hclean.value_line,
    canonical_of_mem hc⟩

/-- And so is the name of a node. -/
theorem known_of_validate {name c : GoString} (h : Nodename.validate name = .ok ())
    (hc : c ∈ canonical) : Entry.Clean ⟨c, name⟩ ∧ Canonical c :=
  ⟨clean_of_validate h hc, canonical_of_mem hc⟩

theorem inviting_of_conf {conf es : Entries} {invitee selfName addr : GoString}
    (hinvitee : Nodename.validate invitee = .ok ()) (hconf : conf.Parsed)
    (hname : conf.getFirst (str "Name") = some selfName)
    (haddr : conf.getFirst (str "Address") = some addr) (hes : es.Parsed) :
    Inviting invitee selfName addr es where
  invitee := by
    intro e he
    simp only [inviteeEntries, List.mem_cons, List.not_mem_nil, or_false] at he
    rcases he with rfl | rfl
    · exact known_of_validate hinvitee (by decide +kernel)
    · exact known_of_getFirst hconf hname (by decide +kernel)
  inviter := by
    intro e he
    simp only [inviterEntries, List.mem_cons] at he
    rcases he with rfl | rfl | he
    · exact known_of_getFirst hconf hname (by decide +kernel)
    · exact known_of_getFirst hconf haddr (by decide +kernel)
    · exact hes e he

theorem selfEntries_of_parseFile {fs made : FileSystem} {dir path : GoString} {es : Entries}
    (hmade : fs.mkdirAll dir = some made) (h : Config.parseFile fs path = .ok es) :
    selfEntries (made.readFile path) = es := by
  unfold Config.parseFile at h
  cases hread : fs.readFile path with
  | error e =>
      rw [hread] at h
      cases h
  | ok text =>
      rw [hread] at h
      simp only at h
      simp only [selfEntries, FileSystem.readFile_mkdirAll hmade hread, h]

/--
**Host data through an invitation.** An invitation that `cmdInvite` has written is
parsed back with one host block, named after the inviter, whose host file gives every
key but the address as the inviter's does, exactly if no entry of that file has a key
with a meaning of its own in invitations, if no line is too long, and if the name of
the network is harmless.
-/
theorem hostData_survives_iff [CaseFold] [PKCS8] [Sha256] {p : Paths} {fs fs' : FileSystem}
    {seed : CookieSeed} {invitee url selfName addr : GoString} {conf es : Entries}
    (hinvite : cmdInvite p fs seed [invitee] = .ok (fs', url))
    (hconf : loadDirectory fs p.confFile = .ok conf)
    (hname : conf.getFirst (str "Name") = some selfName)
    (haddr : conf.getFirst (str "Address") = some addr)
    (hhost : Config.parseFile fs (p.hostFile selfName) = .ok es) :
    ∃ text, fs'.readFile (invitationPath p (newCookie seed)) = .ok text
      ∧ (Survives text selfName es
        ↔ Carried es ∧ (inviteeEntries invitee selfName).Short
          ∧ (inviterEntries selfName addr es).Short ∧ PlainNetname p.netname) := by
  obtain ⟨hinvitee, made, -, hmade, -, htext⟩ := cmdInvite_ok hinvite hconf hname
  rw [haddr, Option.getD_some, selfEntries_of_parseFile hmade hhost] at htext
  exact ⟨_, htext, survives_iff
    (inviting_of_conf hinvitee (loadDirectory_parsed hconf) hname haddr (parseFile_parsed hhost))⟩

section Sample

attribute [local instance] asciiFold clearPKCS8 clearSha256

/-- Node `a`, with this host file of its own. -/
def sampleInviter (host : String) : FileSystem :=
  .ofFiles [
    (sampleLoc ["gsnet.conf"], str "Name = a\nAddress = vpn.example\n"),
    (sampleLoc ["ed25519_key.priv"], (sampleSigner 1).raw),
    (sampleLoc ["hosts", "a"], str host)]

def sampleSeed : CookieSeed := ⟨List.replicate 24 1, List.length_replicate⟩

/-- Node `a` invites node `b`. -/
def sampleInvite (host : String) : Except InviteCmdError (FileSystem × GoString) :=
  cmdInvite samplePaths (sampleInviter host) sampleSeed [str "b"]

/-- What is in the invitation. -/
def sampleInvitation (host : String) : Option GoString :=
  (sampleInvite host).toOption.bind fun r =>
    (r.1.readFile (invitationPath samplePaths (newCookie sampleSeed))).toOption

theorem plainNetname_sample : PlainNetname samplePaths.netname := by
  have hlines : netLines samplePaths.netname = [str "Netname = vpn"] := by decide +kernel
  intro l hl
  rw [hlines, List.mem_singleton] at hl
  subst hl
  exact ⟨by decide +kernel, .inr ⟨by decide +kernel, ⟨str "Netname", str "vpn"⟩, by decide +kernel,
    by decide +kernel⟩⟩

/-- A port comes through. -/
theorem hostData_survives_port :
    ∃ text, sampleInvitation "Port = 655\n" = some text
      ∧ Survives text (str "a") [⟨str "Port", str "655"⟩] := by
  cases h : sampleInvite "Port = 655\n" with
  | error e =>
      have hok : (sampleInvite "Port = 655\n").toBool = true := by decide +kernel
      rw [h] at hok
      cases hok
  | ok r =>
      have hconf : loadDirectory (sampleInviter "Port = 655\n") samplePaths.confFile
          = .ok [⟨str "Name", str "a"⟩, ⟨str "Address", str "vpn.example"⟩] := by decide +kernel
      have hhost : Config.parseFile (sampleInviter "Port = 655\n") (samplePaths.hostFile (str "a"))
          = .ok [⟨str "Port", str "655"⟩] := by decide +kernel
      have haddr : Entries.getFirst [⟨str "Name", str "a"⟩, ⟨str "Address", str "vpn.example"⟩]
          (str "Address") = some (str "vpn.example") := by decide +kernel
      obtain ⟨text, htext, hiff⟩ := hostData_survives_iff h hconf (by decide +kernel) haddr hhost
      refine ⟨text, ?_, hiff.mpr ⟨by decide +kernel, by decide +kernel, by decide +kernel,
        plainNetname_sample⟩⟩
      rw [sampleInvitation, h]
      exact congrArg Except.toOption htext

/-- The host blocks that the joiner finds. -/
def sampleHosts (host : String) : Option (List Block) :=
  (sampleInvitation host).bind fun text => (Invite.parseFile text).toOption.map File.hosts

/--
A name in the host file begins a second block, and what follows is in that one; a
route is in the block and not in the host file that is written from it.
-/
theorem hostData_lost :
    sampleHosts "Name = a\nPort = 655\n"
      = some [{ name := str "a", address := str "vpn.example" },
          { name := str "a", other := [⟨str "Port", str "655"⟩] }]
    ∧ (sampleHosts "Route = 10.0.0.0/8\nPort = 655\n").map (·.map inviterHost)
      = some [[⟨str "Address", str "vpn.example"⟩, ⟨str "Port", str "655"⟩]] := by
  decide +kernel

end Sample

end Gsnet.Cli
