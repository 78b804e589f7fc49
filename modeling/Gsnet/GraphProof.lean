import Gsnet.Graph

/-!
# The graph keeps both halves of every edge

`AddEdge` and `DelEdge` each touch two slots of the adjacency table, and nodes
come into being as a side effect. The invariant below says what never breaks:
nodes and adjacency rows exist together, a half-edge sits under its own
endpoints, and its mirror image is there with the same weight.

With it, `edge?` describes the whole table: two graphs that answer `edge?` alike
list the same `Edges()`.
-/

namespace Gsnet.Graph

open Go

/-- The two slots of the adjacency table that an edge between `a` and `b` occupies. -/
def SameSlot (a b x y : GoString) : Prop := (x = a ∧ y = b) ∨ (x = b ∧ y = a)

instance (a b x y : GoString) : Decidable (SameSlot a b x y) :=
  inferInstanceAs (Decidable (_ ∨ _))

theorem SameSlot.swap {a b x y : GoString} (h : SameSlot a b x y) : SameSlot a b y x :=
  h.symm.imp And.symm And.symm

/-! ## What each operation does to one slot -/

theorem edge?_new (a b : GoString) : new.edge? a b = none := by
  simp [edge?, new]

theorem edge?_setAdj (g : Graph) (a b x y : GoString) (e : Edge) :
    (g.setAdj a b e).edge? x y = if x = a ∧ y = b then some e else g.edge? x y := by
  unfold edge? setAdj
  simp only [GoMap.get?_set]
  by_cases hx : x = a
  · subst hx
    simp only [if_pos, Option.bind_some, GoMap.get?_set, true_and]
    by_cases hy : y = b
    · simp [hy]
    · rw [if_neg hy, if_neg hy]
      cases g.adj.get? x <;> simp
  · simp [hx]

theorem edge?_delAdj (g : Graph) (a b x y : GoString) :
    (g.delAdj a b).edge? x y = if x = a ∧ y = b then none else g.edge? x y := by
  unfold delAdj
  cases h : g.adj.get? a with
  | none =>
      by_cases hxy : x = a ∧ y = b
      · rw [if_pos hxy, hxy.1]; simp [edge?, h]
      · rw [if_neg hxy]
  | some m =>
      unfold edge?
      simp only [GoMap.get?_set]
      by_cases hx : x = a
      · subst hx
        simp [GoMap.get?_delete, h]
      · simp [hx]

theorem edge?_delEdge (g : Graph) (a b x y : GoString) :
    (g.delEdge a b).edge? x y = if SameSlot a b x y then none else g.edge? x y := by
  unfold delEdge SameSlot
  rw [edge?_delAdj, edge?_delAdj]
  by_cases h1 : x = a ∧ y = b
  · simp [h1]
  · by_cases h2 : x = b ∧ y = a
    · simp [h2]
    · simp [h1, h2]

theorem edge?_addSubnet (g : Graph) (o s x y : GoString) :
    (g.addSubnet o s).edge? x y = (g.ensureNode o).edge? x y := by
  unfold addSubnet
  simp only [ensureNode_nodes_self]
  rfl

theorem edge?_delSubnet (g : Graph) (o s x y : GoString) :
    (g.delSubnet o s).edge? x y = g.edge? x y := by
  unfold delSubnet
  split <;> rfl

/-! ## The representation invariant -/

/-- What every graph built by the operations satisfies. -/
structure Inv (g : Graph) : Prop where
  /-- A node has an adjacency row, and only a node has one. -/
  keys : ∀ a, (g.nodes.get? a).isSome ↔ (g.adj.get? a).isSome
  /-- A half-edge sits under its own endpoints. -/
  ends : ∀ a b e, g.edge? a b = some e → e.src = a ∧ e.dst = b
  /-- The other half is stored too. -/
  sym : ∀ a b e, g.edge? a b = some e → g.edge? b a = some e.rev

theorem inv_new : Inv new where
  keys := by intro a; simp [new]
  ends := by intro a b e h; rw [edge?_new] at h; cases h
  sym := by intro a b e h; rw [edge?_new] at h; cases h

/-- An adjacency row that is not there holds no edge. -/
theorem edge?_of_not_node {g : Graph} (h : Inv g) {a : GoString} (ha : g.nodes.get? a = none)
    (b : GoString) : g.edge? a b = none := by
  have hadj : g.adj.get? a = none := by
    cases hq : g.adj.get? a with
    | none => rfl
    | some m =>
        have := (h.keys a).mpr (by rw [hq]; rfl)
        rw [ha] at this; exact absurd this (by simp)
  simp [edge?, hadj]

theorem edge?_ensureNode {g : Graph} (h : Inv g) (name x y : GoString) :
    (g.ensureNode name).edge? x y = g.edge? x y := by
  unfold ensureNode
  split
  · rfl
  · rename_i hn
    by_cases hx : x = name
    · subst hx
      rw [edge?_of_not_node h hn]
      simp [edge?]
    · simp [edge?, GoMap.get?_set_ne _ _ hx]

theorem inv_ensureNode {g : Graph} (h : Inv g) (name : GoString) : Inv (g.ensureNode name) where
  keys := by
    intro a
    unfold ensureNode
    split
    · exact h.keys a
    · by_cases ha : a = name
      · subst ha; simp
      · simp only [GoMap.get?_set_ne _ _ ha]
        exact h.keys a
  ends := by
    intro a b e he
    rw [edge?_ensureNode h] at he
    exact h.ends a b e he
  sym := by
    intro a b e he
    rw [edge?_ensureNode h] at he ⊢
    exact h.sym a b e he

/-- **What `AddEdge` does to one slot.** -/
theorem edge?_addEdge {g : Graph} (h : Inv g) (e : Edge) (x y : GoString) :
    (g.addEdge e).edge? x y
      = if SameSlot e.src e.dst x y then some ⟨x, y, e.weight⟩ else g.edge? x y := by
  unfold addEdge
  simp only [edge?_setAdj, edge?_ensureNode (inv_ensureNode h _), edge?_ensureNode h]
  by_cases h2 : x = e.dst ∧ y = e.src
  · rw [if_pos h2, if_pos (show SameSlot e.src e.dst x y from Or.inr h2), h2.1, h2.2]
    rfl
  · rw [if_neg h2]
    by_cases h1 : x = e.src ∧ y = e.dst
    · rw [if_pos h1, if_pos (show SameSlot e.src e.dst x y from Or.inl h1), h1.1, h1.2]
    · rw [if_neg h1, if_neg (show ¬ SameSlot e.src e.dst x y from not_or.mpr ⟨h1, h2⟩)]

theorem keys_setAdj {g : Graph} {a : GoString} (hk : ∀ x, (g.nodes.get? x).isSome ↔
    (g.adj.get? x).isSome) (ha : (g.nodes.get? a).isSome) (b : GoString) (e : Edge) (x : GoString) :
    ((g.setAdj a b e).nodes.get? x).isSome ↔ ((g.setAdj a b e).adj.get? x).isSome := by
  unfold setAdj
  by_cases hx : x = a
  · subst hx; simp [ha]
  · simp only [GoMap.get?_set_ne _ _ hx]
    exact hk x

theorem ensureNode_isSome (g : Graph) (name : GoString) :
    ((g.ensureNode name).nodes.get? name).isSome := by
  rw [ensureNode_nodes_self]; rfl

theorem ensureNode_mono (g : Graph) {name x : GoString} (h : (g.nodes.get? x).isSome) :
    ((g.ensureNode name).nodes.get? x).isSome := by
  unfold ensureNode
  split
  · exact h
  · simp only [GoMap.get?_set]
    split
    · rfl
    · exact h

theorem addEdge_mono (g : Graph) (e : Edge) {x : GoString} (h : (g.nodes.get? x).isSome) :
    ((g.addEdge e).nodes.get? x).isSome :=
  ensureNode_mono _ (ensureNode_mono g h)

theorem addSubnet_mono (g : Graph) (o s : GoString) {x : GoString} (h : (g.nodes.get? x).isSome) :
    ((g.addSubnet o s).nodes.get? x).isSome := by
  simp only [addSubnet, ensureNode_nodes_self, GoMap.get?_set]
  split
  · rfl
  · exact ensureNode_mono g h

theorem delSubnet_mono (g : Graph) (o s : GoString) {x : GoString} (h : (g.nodes.get? x).isSome) :
    ((g.delSubnet o s).nodes.get? x).isSome := by
  unfold delSubnet
  split
  · simp only [GoMap.get?_set]
    split
    · rfl
    · exact h
  · exact h

theorem nodes_ensureNode_ne (g : Graph) {name x : GoString} (h : name ≠ x) :
    (g.ensureNode name).nodes.get? x = g.nodes.get? x := by
  unfold ensureNode
  split
  · rfl
  · exact GoMap.get?_set_ne _ _ (Ne.symm h)

theorem nodes_addEdge_ne (g : Graph) (e : Edge) {x : GoString} (hsrc : e.src ≠ x)
    (hdst : e.dst ≠ x) : (g.addEdge e).nodes.get? x = g.nodes.get? x := by
  show ((g.ensureNode e.src).ensureNode e.dst).nodes.get? x = _
  rw [nodes_ensureNode_ne _ hdst, nodes_ensureNode_ne _ hsrc]

theorem nodes_addSubnet_ne (g : Graph) {owner x : GoString} (s : GoString) (h : owner ≠ x) :
    (g.addSubnet owner s).nodes.get? x = g.nodes.get? x := by
  simp only [addSubnet, ensureNode_nodes_self]
  rw [GoMap.get?_set_ne _ _ (Ne.symm h), nodes_ensureNode_ne _ h]

/-- A subnet is taken from a node that is there, and no node comes or goes. -/
theorem hasNode_delSubnet (g : Graph) (o s x : GoString) :
    (g.delSubnet o s).hasNode x = g.hasNode x := by
  unfold delSubnet hasNode
  split
  · rename_i n hn
    by_cases hx : x = o
    · subst hx
      rw [GoMap.get?_set_self, hn]
      rfl
    · rw [GoMap.get?_set_ne _ _ hx]
  · rfl

/-- The nodes `range` visits are the nodes of the graph. -/
theorem mem_nodeNames {g : Graph} {x : GoString} : x ∈ g.nodeNames ↔ (g.nodes.get? x).isSome := by
  unfold nodeNames GoMap.keys
  rw [Multiset.mem_map, Option.isSome_iff_exists]
  constructor
  · rintro ⟨⟨y, n⟩, hmem, rfl⟩
    exact ⟨n, GoMap.mem_entries.mp hmem⟩
  · rintro ⟨n, hn⟩
    exact ⟨(x, n), GoMap.mem_entries.mpr hn, rfl⟩

theorem inv_addEdge {g : Graph} (h : Inv g) (e : Edge) : Inv (g.addEdge e) where
  keys := by
    have h2 := inv_ensureNode (inv_ensureNode h e.src) e.dst
    intro x
    unfold addEdge
    -- both rows are there before either half is written
    refine keys_setAdj (keys_setAdj h2.keys ?_ _ _) ?_ _ _ x
    · exact ensureNode_mono _ (ensureNode_isSome g e.src)
    · exact ensureNode_isSome _ e.dst
  ends := by
    intro a b f hf
    rw [edge?_addEdge h] at hf
    split at hf
    · cases hf
      exact ⟨rfl, rfl⟩
    · exact h.ends a b f hf
  sym := by
    intro a b f hf
    rw [edge?_addEdge h] at hf ⊢
    split at hf
    · rename_i hab
      cases hf
      rw [if_pos hab.swap]
      rfl
    · rename_i hne
      rw [if_neg (fun hc => hne hc.swap)]
      exact h.sym a b f hf

theorem keys_delAdj {g : Graph} (hk : ∀ x, (g.nodes.get? x).isSome ↔ (g.adj.get? x).isSome)
    (a b x : GoString) :
    ((g.delAdj a b).nodes.get? x).isSome ↔ ((g.delAdj a b).adj.get? x).isSome := by
  unfold delAdj
  split
  · exact hk x
  · rename_i m hm
    by_cases hx : x = a
    · subst hx
      have := (hk x).mpr (by rw [hm]; rfl)
      simp [this]
    · simp only [GoMap.get?_set_ne _ _ hx]
      exact hk x

theorem inv_delEdge {g : Graph} (h : Inv g) (a b : GoString) : Inv (g.delEdge a b) where
  keys := keys_delAdj (keys_delAdj h.keys a b) b a
  ends := by
    intro x y e he
    rw [edge?_delEdge] at he
    split at he
    · cases he
    · exact h.ends x y e he
  sym := by
    intro x y e he
    rw [edge?_delEdge] at he ⊢
    split at he
    · cases he
    · rename_i hne
      rw [if_neg (fun hc => hne hc.swap)]
      exact h.sym x y e he

/-- Subnet changes leave the key sets and the table alone. -/
theorem inv_setNode {g : Graph} (h : Inv g) {name : GoString} (hn : (g.nodes.get? name).isSome)
    (d : NodeData) : Inv { g with nodes := g.nodes.set name d } where
  keys := by
    intro a
    by_cases ha : a = name
    · subst ha
      simp [(h.keys a).mp hn]
    · simp only [GoMap.get?_set_ne _ _ ha]
      exact h.keys a
  ends := h.ends
  sym := h.sym

theorem inv_addSubnet {g : Graph} (h : Inv g) (o s : GoString) : Inv (g.addSubnet o s) := by
  unfold addSubnet
  simp only [ensureNode_nodes_self]
  exact inv_setNode (inv_ensureNode h o) (ensureNode_isSome g o) _

theorem inv_delSubnet {g : Graph} (h : Inv g) (o s : GoString) : Inv (g.delSubnet o s) := by
  unfold delSubnet
  split
  · rename_i n hn
    exact inv_setNode h (by rw [hn]; rfl) _
  · exact h

/-! ## `Edges()` is determined by the slots -/

theorem edges_eq_bind (g : Graph) : g.edges = g.adj.entries.bind (fun p => p.2.values) := by
  unfold edges GoMap.values
  rw [Multiset.bind_map]

theorem mem_edges {g : Graph} {e : Edge} : e ∈ g.edges ↔ ∃ a b, g.edge? a b = some e := by
  rw [edges_eq_bind, Multiset.mem_bind]
  constructor
  · rintro ⟨⟨a, m⟩, hm, he⟩
    obtain ⟨b, hb⟩ := GoMap.mem_values.mp he
    exact ⟨a, b, by simp [edge?, GoMap.mem_entries.mp hm, hb]⟩
  · rintro ⟨a, b, h⟩
    obtain ⟨m, hm, hb⟩ := Option.bind_eq_some_iff.mp h
    exact ⟨(a, m), GoMap.mem_entries.mpr hm, GoMap.mem_values.mpr ⟨b, hb⟩⟩

/-- A stored half-edge is found under its own endpoints. -/
theorem mem_edges_iff {g : Graph} (h : Inv g) {e : Edge} :
    e ∈ g.edges ↔ g.edge? e.src e.dst = some e := by
  rw [mem_edges]
  constructor
  · rintro ⟨a, b, he⟩
    obtain ⟨rfl, rfl⟩ := h.ends a b e he
    exact he
  · intro he
    exact ⟨_, _, he⟩

/-- Every half-edge is listed once. -/
theorem nodup_edges {g : Graph} (h : Inv g) : g.edges.Nodup := by
  have slot : ∀ p ∈ g.adj.entries, ∀ q ∈ p.2.entries, q.2.src = p.1 ∧ q.2.dst = q.1 := by
    intro p hp q hq
    exact h.ends p.1 q.1 q.2
      (by simp [edge?, GoMap.mem_entries.mp hp, GoMap.mem_entries.mp hq])
  rw [edges_eq_bind, Multiset.nodup_bind]
  constructor
  · -- within a row the far end tells two halves apart
    intro p hp
    refine Multiset.Nodup.map_on ?_ (GoMap.nodup_entries p.2)
    intro q hq q' hq' he
    refine Prod.ext ?_ he
    rw [← (slot p hp q hq).2, ← (slot p hp q' hq').2, he]
  · -- and between two rows the near end does
    refine Multiset.Nodup.pairwise ?_ (GoMap.nodup_entries g.adj)
    intro p hp p' hp' hne
    refine Multiset.disjoint_left.mpr ?_
    intro e he he'
    obtain ⟨q, hq, rfl⟩ := Multiset.mem_map.mp he
    obtain ⟨q', hq', heq⟩ := Multiset.mem_map.mp he'
    have hkey : p.1 = p'.1 := by
      rw [← (slot p hp q hq).1, ← (slot p' hp' q' hq').1, heq]
    have hrow : g.adj.get? p.1 = some p.2 := GoMap.mem_entries.mp hp
    have hrow' : g.adj.get? p'.1 = some p'.2 := GoMap.mem_entries.mp hp'
    rw [← hkey, hrow] at hrow'
    exact hne (Prod.ext hkey (Option.some.inj hrow'))

/-- **Two graphs list the same edges exactly when they answer `edge?` alike.** -/
theorem edges_eq_iff {g₁ g₂ : Graph} (h₁ : Inv g₁) (h₂ : Inv g₂) :
    g₁.edges = g₂.edges ↔ ∀ a b, g₁.edge? a b = g₂.edge? a b := by
  constructor
  · intro heq a b
    have tr : ∀ {g g' : Graph}, Inv g → Inv g' → g.edges = g'.edges → ∀ e,
        g.edge? a b = some e → g'.edge? a b = some e := by
      intro g g' hg hg' hee e he
      have hmem : e ∈ g'.edges := hee ▸ mem_edges.mpr ⟨a, b, he⟩
      obtain ⟨rfl, rfl⟩ := hg.ends a b e he
      exact (mem_edges_iff hg').mp hmem
    cases hq : g₁.edge? a b with
    | some e => exact (tr h₁ h₂ heq e hq).symm
    | none =>
        cases hq' : g₂.edge? a b with
        | none => rfl
        | some e =>
            have := tr h₂ h₁ heq.symm e hq'
            rw [hq] at this; cases this
  · intro hall
    refine (Multiset.Nodup.ext (nodup_edges h₁) (nodup_edges h₂)).mpr ?_
    intro e
    rw [mem_edges_iff h₁, mem_edges_iff h₂, hall]

/-! ## Deleting many edges -/

@[simp] theorem nodes_delEdges (g : Graph) (es : Multiset Edge) :
    (g.delEdges es).nodes = g.nodes := by
  induction es using Multiset.induction generalizing g with
  | empty => rfl
  | cons e es ih =>
      unfold delEdges at ih ⊢
      rw [Multiset.foldl_cons, ih, nodes_delEdge]

@[simp] theorem nodeSubnets_delEdges (g : Graph) (es : Multiset Edge) (x : GoString) :
    (g.delEdges es).nodeSubnets x = g.nodeSubnets x := by
  unfold nodeSubnets
  rw [nodes_delEdges]

theorem inv_delEdges {g : Graph} (h : Inv g) (es : Multiset Edge) : Inv (g.delEdges es) := by
  induction es using Multiset.induction generalizing g with
  | empty => exact h
  | cons e es ih =>
      unfold delEdges at ih ⊢
      rw [Multiset.foldl_cons]
      exact ih (inv_delEdge h e.src e.dst)

theorem edge?_delEdges_none {g : Graph} {es : Multiset Edge} {x y : GoString}
    (h : g.edge? x y = none) : (g.delEdges es).edge? x y = none := by
  induction es using Multiset.induction generalizing g with
  | empty => exact h
  | cons e es ih =>
      unfold delEdges at ih ⊢
      rw [Multiset.foldl_cons]
      refine ih ?_
      rw [edge?_delEdge]
      split
      · rfl
      · exact h

theorem edge?_delEdges_mem {g : Graph} {es : Multiset Edge} {e : Edge} {x y : GoString}
    (he : e ∈ es) (h : SameSlot e.src e.dst x y) : (g.delEdges es).edge? x y = none := by
  obtain ⟨rest, rfl⟩ := Multiset.exists_cons_of_mem he
  have hnone : (g.delEdge e.src e.dst).edge? x y = none := by
    rw [edge?_delEdge, if_pos h]
  have hrest : ((g.delEdge e.src e.dst).delEdges rest).edge? x y = none :=
    edge?_delEdges_none hnone
  unfold delEdges at hrest ⊢
  rwa [Multiset.foldl_cons]

theorem edge?_delEdges_other {g : Graph} {es : Multiset Edge} {x y : GoString}
    (h : ∀ e ∈ es, ¬ SameSlot e.src e.dst x y) : (g.delEdges es).edge? x y = g.edge? x y := by
  induction es using Multiset.induction generalizing g with
  | empty => rfl
  | cons e es ih =>
      have ih := ih (g := g.delEdge e.src e.dst) (fun f hf => h f (by simp [hf]))
      unfold delEdges at ih ⊢
      rw [Multiset.foldl_cons, ih, edge?_delEdge, if_neg (h e (by simp))]

/-- **Dropping a node removes exactly the edges at it.** -/
theorem edge?_delIncident {g : Graph} (h : Inv g) (name x y : GoString) :
    (g.delEdges (g.edges.filter (fun e => e.src = name ∨ e.dst = name))).edge? x y
      = if x = name ∨ y = name then none else g.edge? x y := by
  by_cases hxy : x = name ∨ y = name
  · rw [if_pos hxy]
    cases hq : g.edge? x y with
    | none => exact edge?_delEdges_none hq
    | some e =>
        -- it is listed under its own endpoints, so it is among the deleted ones
        obtain ⟨h1, h2⟩ := h.ends x y e hq
        refine edge?_delEdges_mem (e := e) (Multiset.mem_filter.mpr
          ⟨mem_edges.mpr ⟨x, y, hq⟩, ?_⟩) (Or.inl ⟨h1.symm, h2.symm⟩)
        rw [h1, h2]; exact hxy
  · rw [if_neg hxy]
    refine edge?_delEdges_other (fun e he hat => ?_)
    have hinc := (Multiset.mem_filter.mp he).2
    rcases hat with ⟨rfl, rfl⟩ | ⟨rfl, rfl⟩
    · exact hxy hinc
    · exact hxy hinc.symm

end Gsnet.Graph
