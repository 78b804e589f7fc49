import Gsnet.Proof.Converge

/-!
# Edges and the order of arrival

The graph keeps one entry for the edge between two nodes, but each end announces
it under an ID of its own, with its own times. Nothing compares the two, so the
entry is left by whichever of the two newest messages came last.

`SlotsAgree` is exactly what a set of messages has to satisfy for the order not
to matter. Which messages can have the last word on a slot is said by `Decisive`:
the newest of its ID always gets through, after everything else of that ID; and
where IDs collide so that the newest is about another slot, any of the others may
get through just before it. That these are all is `decisive_of_last`; that each of
them does have the last word in some order is `exists_run_ending`.
-/

namespace Gsnet.Proof

open Gsnet Go Gossip Lib

/-! ## Who has the last word -/

/--
What a message leaves between `a` and `b`: an edge, no edge (`some none`), or
whatever was there (`none`), when it is not about them.
-/
def outcome (a b : GoString) (e : Envelope) : Option (Option Edge) :=
  (edgeRegister a b).write e.fact

/--
A message about the slot that is the newest of its ID, or whose ID has a newest
message about something else.
-/
def Decisive (S : Finset Envelope) (a b : GoString) (e : Envelope) : Prop :=
  e ∈ S ∧ outcome a b e ≠ none
    ∧ (NewestIn S e ∨ ∀ n, NewestIn S n → n.id = e.id → outcome a b n = none)

/--
All decisive messages of a slot leave the same there; and that is no edge where
none of them is the newest of its ID, since they may then all be dropped.
-/
def SlotsAgree (S : Finset Envelope) : Prop :=
  ∀ a b, (∀ e f, Decisive S a b e → Decisive S a b f → outcome a b e = outcome a b f)
    ∧ ((∀ n, NewestIn S n → outcome a b n = none) →
        ∀ e, Decisive S a b e → outcome a b e = some none)

section Edges

variable [Ed25519] {S : Finset Envelope}

/-- **The message with the last word is decisive**, and without one no newest message spoke. -/
theorem decisive_of_last (hts : DistinctTS S) (run : FreshRun S) (a b : GoString) :
    (∃ e, Decisive S a b e ∧ outcome a b e = some (run.after.g.edge? a b))
      ∨ ((∀ n, NewestIn S n → outcome a b n = none) ∧ run.after.g.edge? a b = none) := by
  have hread := (edgeRegister a b).read_receiveAll run.inv run.verified
  have hacc : ∀ n, NewestIn S n → n ∈ run.start.acceptedBy run.envs := by
    intro n hn
    rw [Plane.acceptedBy_eq run.verified]
    exact newest_accepted (run.newest hts hn) (run.newer _ _)
  cases hlast : ((run.start.acceptedBy run.envs).filterMap
      fun e => (edgeRegister a b).write e.fact).getLast? with
  | none =>
      obtain ⟨name, priv, lookup, hfresh⟩ := run.fresh
      rw [hlast] at hread
      refine Or.inr ⟨fun n hn => ?_, ?_⟩
      · exact List.filterMap_eq_nil_iff.mp (List.getLast?_eq_none_iff.mp hlast) n (hacc n hn)
      · refine hread.trans ?_
        rw [hfresh]
        exact Graph.edge?_new a b
  | some v =>
      rw [hlast] at hread
      obtain ⟨pre, e, post, hsplit, hv, hpost⟩ := getLast?_filterMap hlast
      have heS : e ∈ S := run.mem_of_accepted (by unfold Run.accepted; rw [hsplit]; simp)
      refine Or.inl ⟨e, ⟨heS, ?_, ?_⟩, ?_⟩
      · unfold outcome; rw [hv]; simp
      · -- the newest of the ID came before `e`, is `e`, or came after and is silent
        obtain ⟨n, hn, hid⟩ := exists_newestIn heS
        have hmem := hacc n hn
        rw [hsplit] at hmem
        rw [Plane.acceptedBy_eq run.verified] at hsplit
        rcases List.mem_append.mp hmem with hpre | hmem
        · have hlt := accepted_lt_of_before hsplit hpre hid.symm
          exact absurd hlt (not_lt.mpr (hn.2 e heS hid.symm))
        · rcases List.mem_cons.mp hmem with rfl | hafter
          · exact Or.inl hn
          · refine Or.inr (fun m hm hmid => ?_)
            rw [hm.unique hts hn (hmid.trans hid.symm)]
            exact hpost n hafter
      · unfold outcome
        rw [hv]
        exact congrArg some hread.symm

/-- A run over `S` in a chosen order, on a plane that checks nothing. -/
def openRun (hS : ∀ e ∈ S, e.fact.teachesKey = false) (envs : List Envelope)
    (hc : ∀ e, e ∈ envs ↔ e ∈ S) : FreshRun S where
  start := newPlane [] none none
  inv := Graph.inv_new
  envs := envs
  covers := hc
  verified := Plane.allVerify_unkeyed Graph.inv_new rfl (fun _ => rfl)
    (fun e he => hS e ((hc e).mp he))
  fresh := ⟨_, _, _, rfl⟩

theorem openRun_edge? (hS : ∀ e ∈ S, e.fact.teachesKey = false) (envs : List Envelope)
    (hc : ∀ e, e ∈ envs ↔ e ∈ S) (a b : GoString) :
    (openRun hS envs hc).after.g.edge? a b
      = ((accepted Envelope.id Envelope.ts GoMap.empty envs).filterMap (outcome a b)).getLast?.getD
          none := by
  have hread := (edgeRegister a b).read_receiveAll (openRun hS envs hc).inv
    (openRun hS envs hc).verified
  rw [Plane.acceptedBy_eq (openRun hS envs hc).verified] at hread
  have hstart : (edgeRegister a b).read (openRun hS envs hc).start = none := Graph.edge?_new a b
  rw [hstart] at hread
  exact hread

/-- **Every decisive message has the last word in some order**: let its ID come last, it first. -/
theorem exists_run_ending (hS : ∀ e ∈ S, e.fact.teachesKey = false) (hts : DistinctTS S)
    {a b : GoString} {e : Envelope} (he : Decisive S a b e) :
    ∃ run : FreshRun S, outcome a b e = some (run.after.g.edge? a b) := by
  obtain ⟨heS, hout, hdec⟩ := he
  obtain ⟨v, hv⟩ := Option.ne_none_iff_exists'.mp hout
  obtain ⟨n, hn, hid⟩ := exists_newestIn heS
  have hothers : ∀ m, m ∈ (S.filter (fun m => m.id ≠ e.id)).toList ↔ m ∈ S ∧ m.id ≠ e.id := by
    intro m; simp
  have hsame : ∀ m, m ∈ (S.filter (fun m => m.id = e.id)).toList ↔ m ∈ S ∧ m.id = e.id := by
    intro m; simp
  generalize (S.filter (fun m => m.id ≠ e.id)).toList = others at hothers
  generalize (S.filter (fun m => m.id = e.id)).toList = same at hsame
  have hc : ∀ m, m ∈ others ++ e :: n :: same ↔ m ∈ S := by
    intro m
    rw [List.mem_append, List.mem_cons, List.mem_cons, hothers, hsame]
    refine ⟨?_, fun hm => ?_⟩
    · rintro (h | rfl | rfl | h)
      · exact h.1
      · exact heS
      · exact hn.1
      · exact h.1
    · by_cases hmid : m.id = e.id
      · exact Or.inr (Or.inr (Or.inr ⟨hm, hmid⟩))
      · exact Or.inl ⟨hm, hmid⟩
  refine ⟨openRun hS _ hc, ?_⟩
  rw [openRun_edge?, accepted_append]
  have hnew : Newer (tableAfter Envelope.id Envelope.ts GoMap.empty others) e.id e.ts :=
    (newer_tableAfter _ _ _ _).mpr
      ⟨newer_empty _ _, fun m hm hmid => absurd hmid ((hothers m).mp hm).2⟩
  rw [accepted, if_pos hnew]
  generalize tableAfter Envelope.id Envelope.ts GoMap.empty others = table at hnew
  -- what still gets through after `e` is at most the newest message, and that is silent
  have hsilent : ∀ m ∈ accepted Envelope.id Envelope.ts (table.set e.id e.ts) (n :: same),
      outcome a b m = none := by
    intro m hm
    have hmn : m = n := accepted_newest_first (fun m hm => by
      obtain ⟨hmS, hmid⟩ := (hsame m).mp hm
      exact ⟨hmid.trans hid.symm, hn.2 m hmS (hmid.trans hid.symm)⟩) hm
    have hlt : e.ts < m.ts := by
      have := accepted_newer hm
      rwa [hmn, newer_set, if_pos hid, ← hmn] at this
    rcases hdec with hnewest | hsil
    · have heq : e = n := hnewest.unique hts hn hid.symm
      rw [hmn, ← heq] at hlt
      exact absurd hlt (lt_irrefl _)
    · rw [hmn]; exact hsil n hn hid
  rw [List.filterMap_append, List.filterMap_cons_some hv, List.filterMap_eq_nil_iff.mpr hsilent, hv]
  simp

/-- Where no newest message is about the slot, some order leaves it empty. -/
theorem exists_run_silent (hS : ∀ e ∈ S, e.fact.teachesKey = false)
    {a b : GoString} (hno : ∀ n, NewestIn S n → outcome a b n = none) :
    ∃ run : FreshRun S, run.after.g.edge? a b = none := by
  have hfirst : ∀ m, m ∈ (S.filter (fun m => NewestIn S m)).toList ↔ NewestIn S m := by
    intro m
    rw [Finset.mem_toList, Finset.mem_filter]
    exact ⟨fun h => h.2, fun h => ⟨h.1, h⟩⟩
  generalize (S.filter (fun m => NewestIn S m)).toList = first at hfirst
  have hc : ∀ m, m ∈ first ++ S.toList ↔ m ∈ S := by
    intro m
    rw [List.mem_append, hfirst, Finset.mem_toList]
    exact ⟨fun h => h.elim (fun hn => hn.1) id, Or.inr⟩
  refine ⟨openRun hS _ hc, ?_⟩
  rw [openRun_edge?, accepted_append]
  -- once the newest of every ID is in, nothing else gets through
  have hrest : accepted Envelope.id Envelope.ts
      (tableAfter Envelope.id Envelope.ts GoMap.empty first) S.toList = [] := by
    rw [List.eq_nil_iff_forall_not_mem]
    intro m hm
    obtain ⟨n, hn, hid⟩ := exists_newestIn (Finset.mem_toList.mp (mem_of_accepted hm))
    have := ((newer_tableAfter _ _ _ _).mp (accepted_newer hm)).2 n ((hfirst n).mpr hn) hid
    exact absurd this (not_lt.mpr (hn.2 m (Finset.mem_toList.mp (mem_of_accepted hm)) hid.symm))
  have hnil :
      (accepted Envelope.id Envelope.ts GoMap.empty first).filterMap (outcome a b) = [] := by
    refine List.filterMap_eq_nil_iff.mpr (fun m hm => ?_)
    exact hno m ((hfirst m).mp (mem_of_accepted hm))
  rw [hrest, List.append_nil, hnil]
  rfl

/-! ## The exact condition -/

/-- Minted by `AnnounceAddEdge` or `AnnounceDelEdge`. -/
def EdgeMinted (env : Envelope) : Prop :=
  ∃ (p : Plane) (peer : GoString) (ts : Int64),
    (∃ w, env = (p.announceAddEdge peer w ts).2) ∨ env = (p.announceDelEdge peer ts).2

theorem EdgeMinted.teaches_nothing {env : Envelope} (h : EdgeMinted env) :
    env.fact.teachesKey = false := by
  obtain ⟨p, peer, ts, ⟨w, h⟩ | h⟩ := h
  · have h : env = (p.announce (.addEdge peer w) ts).2 := h
    rw [h, Plane.announce_fact]; rfl
  · have h : env = (p.announce (.delEdge peer) ts).2 := h
    rw [h, Plane.announce_fact]; rfl

/--
**When the order of edge messages does not matter**: exactly when the messages
that can have the last word on a slot all leave the same there.
-/
theorem edges_order_independent_iff (S : Finset Envelope) (hmint : ∀ e ∈ S, EdgeMinted e)
    (hts : DistinctTS S) :
    (∀ run₁ run₂ : FreshRun S, run₁.after.g.edges = run₂.after.g.edges) ↔ SlotsAgree S := by
  have hS : ∀ e ∈ S, e.fact.teachesKey = false := fun e he => (hmint e he).teaches_nothing
  have hinv : ∀ run : FreshRun S, run.after.g.Inv := fun run =>
    Plane.inv_receiveAll run.inv run.envs
  refine ⟨fun h a b => ?_, fun h run₁ run₂ => ?_⟩
  · -- let each decisive message have the last word in turn
    have hslot : ∀ run₁ run₂ : FreshRun S, run₁.after.g.edge? a b = run₂.after.g.edge? a b :=
      fun run₁ run₂ => (Graph.edges_eq_iff (hinv run₁) (hinv run₂)).mp (h run₁ run₂) a b
    refine ⟨fun e f he hf => ?_, fun hno e he => ?_⟩
    · obtain ⟨run₁, h₁⟩ := exists_run_ending hS hts he
      obtain ⟨run₂, h₂⟩ := exists_run_ending hS hts hf
      rw [h₁, h₂, hslot run₁ run₂]
    · obtain ⟨run₁, h₁⟩ := exists_run_ending hS hts he
      obtain ⟨run₂, h₂⟩ := exists_run_silent hS hno
      rw [h₁, hslot run₁ run₂, h₂]
  · -- whatever had the last word in either run was decisive
    refine (Graph.edges_eq_iff (hinv run₁) (hinv run₂)).mpr (fun a b => ?_)
    obtain ⟨hsame, hnone⟩ := h a b
    rcases decisive_of_last hts run₁ a b with ⟨e, he, h₁⟩ | ⟨hno, h₁⟩
    · rcases decisive_of_last hts run₂ a b with ⟨f, hf, h₂⟩ | ⟨hno, h₂⟩
      · have := hsame e f he hf
        rw [h₁, h₂] at this
        exact Option.some.inj this
      · have := hnone hno e he
        rw [h₁] at this
        rw [Option.some.inj this, h₂]
    · rcases decisive_of_last hts run₂ a b with ⟨f, hf, h₂⟩ | ⟨_, h₂⟩
      · have := hnone hno f hf
        rw [h₂] at this
        rw [Option.some.inj this, h₁]
      · rw [h₁, h₂]

end Edges

section EdgeSamples

attribute [local instance] clearEd25519

/-- Both ends of a link announce it, with the same weight. -/
def linkFromA : Envelope := ((newPlane (str "a") none none).announceAddEdge (str "b") 10 1).2
def linkFromB : Envelope := ((newPlane (str "b") none none).announceAddEdge (str "a") 10 2).2

theorem link_slots_agree : SlotsAgree {linkFromA, linkFromB} := by
  have hA : linkFromA.fact = .edge (str "a") (str "b") (some 10) := by decide +kernel
  have hB : linkFromB.fact = .edge (str "b") (str "a") (some 10) := by decide +kernel
  intro a b
  have hout : ∀ e ∈ ({linkFromA, linkFromB} : Finset Envelope),
      outcome a b e = outcome a b linkFromA := by
    intro e he
    simp only [Finset.mem_insert, Finset.mem_singleton] at he
    rcases he with rfl | rfl
    · rfl
    · simp only [outcome, edgeRegister, hA, hB, Graph.SameSlot, or_comm]
  have hnew : ∀ e ∈ ({linkFromA, linkFromB} : Finset Envelope),
      NewestIn {linkFromA, linkFromB} e := by decide +kernel
  refine ⟨fun e f he hf => (hout e he.1).trans (hout f hf.1).symm, fun hno e he => ?_⟩
  exact absurd (hno e (hnew e he.1)) he.2.1

theorem minted_pair {e₁ e₂ : Envelope} (h₁ : EdgeMinted e₁) (h₂ : EdgeMinted e₂) :
    ∀ e ∈ ({e₁, e₂} : Finset Envelope), EdgeMinted e := by
  intro e he
  rcases Finset.mem_insert.mp he with rfl | he
  · exact h₁
  · rwa [Finset.mem_singleton.mp he]

theorem links_minted : ∀ e ∈ ({linkFromA, linkFromB} : Finset Envelope), EdgeMinted e :=
  minted_pair ⟨_, _, _, Or.inl ⟨_, rfl⟩⟩ ⟨_, _, _, Or.inl ⟨_, rfl⟩⟩

theorem links_teach_nothing :
    ∀ e ∈ ({linkFromA, linkFromB} : Finset Envelope), e.fact.teachesKey = false :=
  fun e he => (links_minted e he).teaches_nothing

theorem edges_order_independent_same_weight :
    (openRun links_teach_nothing [linkFromA, linkFromB] (by simp)).after.g.edges
      = (openRun links_teach_nothing [linkFromB, linkFromA] (by simp [or_comm])).after.g.edges := by
  exact (edges_order_independent_iff {linkFromA, linkFromB} links_minted (by decide +kernel)).mpr
    link_slots_agree _ _

/-- One end announces the link and the other, later, withdraws it. -/
def linkGone : Envelope := ((newPlane (str "b") none none).announceDelEdge (str "a") 2).2

theorem link_minted : ∀ e ∈ ({linkFromA, linkGone} : Finset Envelope), EdgeMinted e :=
  minted_pair ⟨_, _, _, Or.inl ⟨_, rfl⟩⟩ ⟨_, _, _, Or.inr rfl⟩

theorem link_teaches_nothing :
    ∀ e ∈ ({linkFromA, linkGone} : Finset Envelope), e.fact.teachesKey = false :=
  fun e he => (link_minted e he).teaches_nothing

theorem edges_depend_on_order :
    (∀ e ∈ ({linkFromA, linkGone} : Finset Envelope), EdgeMinted e)
      ∧ DistinctTS {linkFromA, linkGone} ∧ linkFromA.ts ≠ linkGone.ts
      ∧ ∃ run₁ run₂ : FreshRun {linkFromA, linkGone},
          run₁.after.g.edges = 0 ∧ run₂.after.g.edges ≠ 0 := by
  exact ⟨link_minted, by decide +kernel, by decide +kernel,
    openRun link_teaches_nothing [linkFromA, linkGone] (by simp),
    openRun link_teaches_nothing [linkGone, linkFromA] (by simp [or_comm]),
    by decide +kernel, by decide +kernel⟩

end EdgeSamples

end Gsnet.Proof
