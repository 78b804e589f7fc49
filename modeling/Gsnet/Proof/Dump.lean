import Gsnet.Control
import Gsnet.Go.StringsProof

/-!
# The framing of dumps

A dump is well framed if the text of the answer has one line for each item and then
the line that ends it, and if the client prints those lines and stops there. The
handler only ends the answers to three of the six requests that `gsnet dump` can
make. For those three it comes down to the items: a line feed in one makes two lines
of it, and a carriage return at its end is taken for a part of the line's end.

No item is mistaken for the last line as long as it is one line, because its line
goes on with a blank where the last one ends.
-/

namespace Gsnet.Control

open Go Daemon

/-! ## Reading lines -/

/-- One line of the answer. -/
theorem runControlDump_line {l : GoString} (h : 0x0A ∉ l) (term line t : GoString) :
    runControlDump term line (l ++ 0x0A :: t)
      = if trimEOL (line ++ l ++ [0x0A]) = term then .returned [] t
        else (runControlDump term [] t).after (trimEOL (line ++ l ++ [0x0A])) := by
  induction l generalizing line with
  | nil => simp [runControlDump]
  | cons c l ih =>
      have hc : c ≠ 0x0A := fun heq => h (heq ▸ List.mem_cons_self)
      rw [List.cons_append, runControlDump, if_pos hc, ih fun hm => h (List.mem_cons_of_mem c hm)]
      simp

/-- What is left of a line without its end. -/
def trimCR (l : GoString) : GoString := trimEOL (l ++ [0x0A])

theorem trimCR_eq_self_iff {l : GoString} (h : 0x0A ∉ l) :
    trimCR l = l ↔ l.getLast? ≠ some 0x0D := by
  have hline : trimCR l = trimEOL l := by simp [trimCR, trimEOL]
  rw [hline, trimEOL, List.rdropWhile_eq_self_iff]
  constructor
  · intro hlast hcr
    have hne : l ≠ [] := by
      rintro rfl
      cases hcr
    rw [List.getLast?_eq_some_getLast hne] at hcr
    have := hlast hne
    rw [Option.some.inj hcr] at this
    simp at this
  · intro hcr hne
    have hmem := List.getLast_mem hne
    rw [List.getLast?_eq_some_getLast hne] at hcr
    have h1 : l.getLast hne ≠ 0x0D := fun heq => hcr (by rw [heq])
    have h2 : l.getLast hne ≠ 0x0A := fun heq => h (heq ▸ hmem)
    simp [h1, h2]

example : trimCR (str "18 3 a\r") = str "18 3 a" := by decide +kernel

/-- What is cut off at the end goes no further back than the last other byte. -/
theorem rdropWhile_append_front {p : UInt8 → Bool} {l : GoString} {b : UInt8} (hb : p b = false)
    (t : GoString) : l ++ [b] <+: (l ++ [b] ++ t).rdropWhile p := by
  induction t using List.reverseRecOn with
  | nil => rw [List.append_nil, List.rdropWhile_concat_neg p _ _ (by simp [hb])]
  | append_singleton t c ih =>
      rw [← List.append_assoc]
      by_cases hc : p c = true
      · rw [List.rdropWhile_concat_pos p _ _ hc]
        exact ih
      · rw [List.rdropWhile_concat_neg p _ _ hc, List.append_assoc]
        exact List.prefix_append _ _

/-- The line of an item is not the last one. -/
theorem trimCR_itemLine_ne (t : RequestType) (item : GoString) :
    trimCR (itemLine t item) ≠ terminator t := by
  intro h
  have hline : itemLine t item ++ [0x0A] = terminator t ++ [0x20] ++ (item ++ [0x0A]) := by
    simp [itemLine]
  have hpre : terminator t ++ [0x20] <+: trimCR (itemLine t item) := by
    rw [trimCR, trimEOL, hline]
    exact rdropWhile_append_front rfl _
  rw [h] at hpre
  have hlen := hpre.length_le
  simp at hlen

theorem getLast?_trimCR (l : GoString) : (trimCR l).getLast? ≠ some 0x0D := by
  intro h
  have hne : trimCR l ≠ [] := by
    intro hnil
    rw [hnil] at h
    cases h
  have hlast := List.rdropWhile_last_not (fun c => c == 0x0D || c == 0x0A) (l ++ [0x0A]) hne
  rw [List.getLast?_eq_some_getLast hne] at h
  refine hlast ?_
  have hcr : (trimCR l).getLast hne = 0x0D := Option.some.inj h
  have hcr' : ((l ++ [0x0A]).rdropWhile fun c => c == 0x0D || c == 0x0A).getLast hne = 0x0D := hcr
  rw [hcr']
  rfl

theorem notMem_terminator (t : RequestType) : 0x0A ∉ terminator t := by
  cases t <;> decide +kernel

theorem notMem_itemLine {t : RequestType} {item : GoString} :
    0x0A ∉ itemLine t item ↔ 0x0A ∉ item := by
  have hterm := notMem_terminator t
  simp [itemLine, hterm]

/-- An item is what the line of an item ends with. -/
theorem getLast?_itemLine (t : RequestType) (item : GoString) :
    (itemLine t item).getLast? ≠ some 0x0D ↔ item.getLast? ≠ some 0x0D := by
  rw [itemLine, List.getLast?_append, List.getLast?_cons]
  cases item.getLast? <;> simp

/-- **The client prints a line for each item and stops where the answer ends.** -/
theorem runControlDump_items (t : RequestType) {items : List GoString}
    (h : ∀ item ∈ items, 0x0A ∉ item) (rest : GoString) :
    runControlDump (terminator t) []
        (items.flatMap (fun item => itemLine t item ++ [0x0A]) ++ (terminator t ++ 0x0A :: rest))
      = .returned (items.map fun item => trimCR (itemLine t item)) rest := by
  induction items with
  | nil =>
      have hself : trimCR (terminator t) = terminator t := by cases t <;> decide +kernel
      rw [List.flatMap_nil, List.nil_append, runControlDump_line (notMem_terminator t),
        List.nil_append, ← trimCR, if_pos hself, List.map_nil]
  | cons item items ih =>
      rw [List.flatMap_cons, List.append_assoc, List.append_assoc, List.singleton_append,
        runControlDump_line (notMem_itemLine.mpr (h item List.mem_cons_self)), List.nil_append,
        ← trimCR, if_neg (trimCR_itemLine_ne t item),
        ih fun x hx => h x (List.mem_cons_of_mem item hx)]
      rfl

/-! ## Whole answers -/

/-- What a graph has to list. -/
def graphItems (g : Graph) (iter : IterOrder) : RequestType → Multiset GoString
  | .dumpNodes => g.nodeNames
  | .dumpEdges => g.edges.map edgeItem
  | .dumpSubnets => (allSubnets iter).entries.map subnetItem
  | _ => 0

/-- The items come out in some order, one line each, with the last line after them, and are read. -/
def Framed (g : Graph) (o : DumpOrder) (t : RequestType) : Prop :=
  ∃ items : List GoString, (items : Multiset GoString) = graphItems g o.iter t
    ∧ rawLines [] (controlHandler o t) = items.map (itemLine t) ++ [terminator t]
    ∧ runControlDump (terminator t) [] (controlHandler o t)
      = .returned (items.map (itemLine t)) []

/-- A request that is answered, for items that are lines. -/
structure Dumpable (g : Graph) (iter : IterOrder) (t : RequestType) : Prop where
  answered : t = .dumpNodes ∨ t = .dumpEdges ∨ t = .dumpSubnets
  line : ∀ item ∈ graphItems g iter t, 0x0A ∉ item
  /-- A carriage return would be cut off with the line feed. -/
  last : ∀ item ∈ graphItems g iter t, item.getLast? ≠ some 0x0D

section

variable {g : Graph} {o : DumpOrder} {t : RequestType}

theorem coe_dumpItems (h : o.Of g) (t : RequestType) :
    (dumpItems o t : Multiset GoString) = graphItems g o.iter t := by
  cases t with
  | dumpNodes => exact h.nodes
  | dumpEdges => rw [graphItems, ← h.edges]; rfl
  | dumpSubnets => rw [graphItems, ← h.subnets]; rfl
  | _ => rfl

theorem controlHandler_answered (h : t = .dumpNodes ∨ t = .dumpEdges ∨ t = .dumpSubnets) :
    controlHandler o t = (dumpItems o t).flatMap (fun item => itemLine t item ++ [0x0A])
      ++ (terminator t ++ [0x0A]) := by
  rcases h with rfl | rfl | rfl <;> rfl

theorem rawLines_answered (t : RequestType) {items : List GoString}
    (h : ∀ item ∈ items, 0x0A ∉ item) :
    rawLines [] (items.flatMap (fun item => itemLine t item ++ [0x0A]) ++ (terminator t ++ [0x0A]))
      = items.map (itemLine t) ++ [terminator t] := by
  have hlines : items.flatMap (fun item => itemLine t item ++ [0x0A])
      = (items.map (itemLine t)).flatMap (· ++ [0x0A]) := by rw [List.flatMap_map]
  rw [hlines, rawLines_lines _ _, rawLines_append (notMem_terminator t)]
  · rfl
  · intro l hl
    obtain ⟨item, hitem, rfl⟩ := List.mem_map.mp hl
    exact notMem_itemLine.mpr (h item hitem)

/-- A request that is not answered gets a line that does not end the dump. -/
theorem not_framed (hkind : t = .dumpConnections ∨ t = .dumpGraph ∨ t = .dumpInvitations) :
    ¬ Framed g o t := by
  rintro ⟨items, -, hlines, -⟩
  have hone : rawLines [] (controlHandler o t) = [itemLine t (str "0")] := by
    have hline : controlHandler o t = itemLine t (str "0") ++ [0x0A] := by
      rcases hkind with rfl | rfl | rfl <;> rfl
    rw [hline, rawLines_append (notMem_itemLine.mpr (by decide +kernel))]
    rfl
  rw [hone] at hlines
  have hlast := congrArg List.getLast? hlines
  rw [List.getLast?_concat, List.getLast?_singleton, Option.some.injEq] at hlast
  have hlen := congrArg List.length hlast
  simp [itemLine] at hlen

theorem cmdDump_cases {kind : GoString} (h : cmdDump kind = some t) :
    (t = .dumpNodes ∨ t = .dumpEdges ∨ t = .dumpSubnets)
      ∨ (t = .dumpConnections ∨ t = .dumpGraph ∨ t = .dumpInvitations) := by
  unfold cmdDump at h
  split_ifs at h <;> cases h <;> simp

/--
**The framing of dumps.** For every graph and every kind of `gsnet dump`, the answer
is framed and read as it should be exactly if the daemon answers that kind, no item
holds a line feed and none ends with a carriage return.
-/
theorem dump_framed_iff {kind : GoString} (ho : o.Of g) (hkind : cmdDump kind = some t) :
    Framed g o t ↔ Dumpable g o.iter t := by
  have hitems : ∀ {items : List GoString}, (items : Multiset GoString) = graphItems g o.iter t →
      ∀ item, item ∈ graphItems g o.iter t ↔ item ∈ items := fun hcoe item => by
    rw [← hcoe, Multiset.mem_coe]
  constructor
  · intro h
    have hans : t = .dumpNodes ∨ t = .dumpEdges ∨ t = .dumpSubnets :=
      (cmdDump_cases hkind).resolve_right fun hno => not_framed hno h
    obtain ⟨items, hcoe, hlines, hrun⟩ := h
    have hline : ∀ item ∈ graphItems g o.iter t, 0x0A ∉ item := by
      intro item hitem
      have hmem : itemLine t item ∈ rawLines [] (controlHandler o t) := by
        rw [hlines]
        exact List.mem_append_left _ (List.mem_map_of_mem ((hitems hcoe item).mp hitem))
      exact notMem_itemLine.mp (notMem_rawLines List.not_mem_nil _ hmem)
    refine ⟨hans, hline, fun item hitem => ?_⟩
    -- what was printed is a line with its end cut off
    have hwritten : ∀ item ∈ dumpItems o t, 0x0A ∉ item := fun item hm =>
      hline item ((hitems (coe_dumpItems ho t) item).mpr hm)
    rw [controlHandler_answered hans, runControlDump_items t hwritten] at hrun
    have hprinted : itemLine t item
        ∈ (dumpItems o t).map fun item => trimCR (itemLine t item) := by
      rw [(Dumped.returned.inj hrun).1]
      exact List.mem_map_of_mem ((hitems hcoe item).mp hitem)
    obtain ⟨item', -, heq⟩ := List.mem_map.mp hprinted
    rw [← getLast?_itemLine t, ← heq]
    exact getLast?_trimCR _
  · rintro ⟨hans, hline, hlast⟩
    have hwritten : ∀ item ∈ dumpItems o t, 0x0A ∉ item := fun item hm =>
      hline item ((hitems (coe_dumpItems ho t) item).mpr hm)
    refine ⟨dumpItems o t, coe_dumpItems ho t, ?_, ?_⟩
    · rw [controlHandler_answered hans]
      exact rawLines_answered t hwritten
    · rw [controlHandler_answered hans, runControlDump_items t hwritten]
      congr 1
      refine List.map_congr_left fun item hm => ?_
      rw [trimCR_eq_self_iff (notMem_itemLine.mpr (hwritten item hm)), getLast?_itemLine]
      exact hlast item ((hitems (coe_dumpItems ho t) item).mpr hm)

end

/-- A graph of two nodes, of which one may have any name. -/
def sampleGraph (name : String) : Graph := (Graph.new.addNode (str "a")).addNode (str name)

/-- Its nodes in the order they were added. -/
def sampleOrder (name : String) : DumpOrder where
  nodes := [str "a", str name]
  edges := []
  iter := ⟨[str "a", str name], fun _ => []⟩
  subnets := []

theorem sampleOrder_of : (sampleOrder "b").Of (sampleGraph "b") where
  nodes := by decide +kernel
  edges := by decide +kernel
  iter := by decide +kernel
  subnets := by decide +kernel

/-- Two plain names. -/
theorem dump_framed_nodes : Framed (sampleGraph "b") (sampleOrder "b") .dumpNodes :=
  (@dump_framed_iff _ _ _ (str "nodes") sampleOrder_of (by decide +kernel)).mpr
    ⟨.inl rfl, by decide +kernel, by decide +kernel⟩

/-- What the client makes of a dump of that kind. -/
def sampleDump (name kind : String) : Option Dumped :=
  (cmdDump (str kind)).map fun t =>
    runControlDump (terminator t) [] (controlHandler (sampleOrder name) t)

/--
Connections are never listed and the client waits for the end; a name with a line
feed ends the list and leaves the rest to the next request.
-/
theorem dump_not_framed :
    sampleDump "b" "connections" = some (.waiting [str "18 7 0"])
    ∧ sampleDump "x\n18 4" "nodes"
      = some (.returned [str "18 4 a", str "18 4 x"] (str "18 4\n")) := by
  decide +kernel

end Gsnet.Control
