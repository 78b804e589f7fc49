import Gsnet.Daemon
import Gsnet.Gossip.Announce

/-!
# Announced subnets and the configuration

`announceLocal` announces what the configuration lists and never takes anything
back, so what a node announces is the union of what all the configurations it has
loaded since it was started list. That is the current configuration exactly when
the configurations only ever grew. A changed weight counts as a loss: it is part
of the text the subnet is known by.
-/

namespace Gsnet.Daemon

open Go Config Gossip

/-- The texts of the subnets of a configuration. -/
def Loaded.texts (l : Loaded) : Finset GoString := (l.subnets.map Subnet.string).toFinset

theorem Loaded.mem_texts {l : Loaded} {t : GoString} :
    t ∈ l.texts ↔ ∃ s ∈ l.subnets, t = s.string := by
  simp [Loaded.texts, eq_comm]

theorem Loaded.texts_eq_empty {l : Loaded} : l.texts = ∅ ↔ l.subnets = [] := by
  simp [Loaded.texts]

/-- The subnets whose envelope in the outbox is an `add_subnet`. -/
def announcedSubnets (p : Plane) : Set GoString :=
  {s | ∃ env, p.outbox.get? (Plane.subnetID p.nodeName s) = some env ∧ env.kind = .addSubnet}

/-! ## One announcement -/

theorem subnetID_left_inj {name s t : GoString} :
    Plane.subnetID name s = Plane.subnetID name t ↔ s = t := by
  unfold Plane.subnetID
  exact ⟨List.append_cancel_left, fun h => by rw [h]⟩

section Announce

variable [Ed25519] (p : Plane)

/-- **Announcing a subnet adds it**, to the outbox and to the graph. -/
theorem announceAddSubnet_spec (s : GoString) (ts : Int64) :
    announcedSubnets (p.announceAddSubnet s ts).1 = insert s (announcedSubnets p)
      ∧ (p.announceAddSubnet s ts).1.g
          = p.g.addSubnet (toValidUTF8 p.nodeName) (toValidUTF8 s) := by
  have hcall : p.announceAddSubnet s ts = p.announce (.addSubnet s) ts := rfl
  rw [hcall]
  constructor
  · ext t
    simp only [announcedSubnets, Set.mem_ofPred_eq, Set.mem_insert_iff, Plane.announce_nodeName,
      Plane.announce_outbox, Announcement.id, GoMap.get?_set, subnetID_left_inj]
    by_cases ht : t = s
    · simp [ht, Announcement.kind]
    · simp [ht]
  · rw [Plane.announce_plane, Plane.apply_eq_enact, Plane.announce_fact]
    rfl

/-- A Hello announces no subnet. -/
theorem announceHello_spec (h : Hello) (ts : Int64) :
    announcedSubnets (p.announceHello h ts).1 = announcedSubnets p
      ∧ ∀ x, (p.announceHello h ts).1.g.nodeSubnets x = p.g.nodeSubnets x := by
  have hcall : p.announceHello h ts = p.announce (.hello h) ts := rfl
  rw [hcall]
  constructor
  · ext t
    simp only [announcedSubnets, Set.mem_ofPred_eq, Plane.announce_nodeName, Plane.announce_outbox,
      Announcement.id, GoMap.get?_set, if_neg (subnetID_ne_helloID p.nodeName t)]
  · intro x
    rw [Plane.announce_plane, Plane.apply_eq_enact, Plane.announce_fact]
    -- the payload is read as a Hello, or not at all
    show (Plane.enact _ (readFact .addNode h.marshal)).g.nodeSubnets x = _
    unfold readFact
    cases Hello.unmarshal h.marshal with
    | none => rfl
    | some h' =>
        show (Plane.applyAddNode _ h').g.nodeSubnets x = _
        rw [Plane.applyAddNode_eq]
        exact Graph.nodeSubnets_ensureNode _ _ _

/-- The subnets of a configuration, one after the other. -/
theorem announceSubnets_spec (clock : Nat → Int64) (subnets : List (Subnet × Nat)) :
    let q := subnets.foldl (fun p s => (p.announceAddSubnet s.1.string (clock s.2)).1) p
    q.nodeName = p.nodeName
      ∧ (∀ t, t ∈ announcedSubnets q ↔ t ∈ announcedSubnets p ∨ ∃ s ∈ subnets, t = s.1.string)
      ∧ ∀ x t, t ∈ q.g.nodeSubnets x ↔ t ∈ p.g.nodeSubnets x
          ∨ (x = toValidUTF8 p.nodeName ∧ ∃ s ∈ subnets, t = s.1.string) := by
  induction subnets generalizing p with
  | nil => simp
  | cons s subnets ih =>
      obtain ⟨hann, hg⟩ := announceAddSubnet_spec p s.1.string (clock s.2)
      have hname : (p.announceAddSubnet s.1.string (clock s.2)).1.nodeName = p.nodeName :=
        Plane.announce_nodeName p (.addSubnet s.1.string) (clock s.2)
      obtain ⟨ihname, ihann, ihg⟩ := ih (p.announceAddSubnet s.1.string (clock s.2)).1
      refine ⟨by rw [List.foldl_cons, ihname, hname], fun t => ?_, fun x t => ?_⟩
      · rw [List.foldl_cons, ihann, hann, Set.mem_insert_iff, List.exists_mem_cons_iff]
        tauto
      · rw [List.foldl_cons, ihg, hg, hname, Graph.nodeSubnets_addSubnet, Subnet.toValidUTF8_string,
          List.exists_mem_cons_iff]
        by_cases hx : x = toValidUTF8 p.nodeName
        · simp only [hx, if_true, Finset.mem_insert, true_and]
          tauto
        · simp [hx]

/-- **What `announceLocal` does**: the subnets of the configuration are added to those before. -/
theorem announceLocal_spec [Curve25519] (l : Loaded) (ep : Option AddrPort) (clock : Clock) :
    (announceLocal p l ep clock).nodeName = p.nodeName
      ∧ (∀ t, t ∈ announcedSubnets (announceLocal p l ep clock)
          ↔ t ∈ announcedSubnets p ∨ t ∈ l.texts)
      ∧ ∀ x t, t ∈ (announceLocal p l ep clock).g.nodeSubnets x
          ↔ t ∈ p.g.nodeSubnets x ∨ (x = toValidUTF8 p.nodeName ∧ t ∈ l.texts) := by
  obtain ⟨hann, hg⟩ := announceHello_spec p (localHello l ep) clock.hello
  have hname : (p.announceHello (localHello l ep) clock.hello).1.nodeName = p.nodeName :=
    Plane.announce_nodeName p (.hello (localHello l ep)) clock.hello
  have hzip : ∀ t, (∃ s ∈ l.subnets.zipIdx, t = s.1.string) ↔ t ∈ l.texts := by
    intro t
    rw [Loaded.mem_texts]
    constructor
    · rintro ⟨s, hs, rfl⟩
      exact ⟨s.1, by rw [← List.zipIdx_map_fst 0 l.subnets]; exact List.mem_map_of_mem hs, rfl⟩
    · rintro ⟨s, hs, rfl⟩
      rw [← List.zipIdx_map_fst 0 l.subnets] at hs
      obtain ⟨s', hs', rfl⟩ := List.mem_map.mp hs
      exact ⟨s', hs', rfl⟩
  have h := announceSubnets_spec (p.announceHello (localHello l ep) clock.hello).1 clock.subnet
    l.subnets.zipIdx
  simp only [hzip, hann, hg, hname] at h
  exact h

end Announce

/-! ## Sequences of configurations -/

/-- Every earlier one is related to every later one, split by split. -/
theorem pairwise_iff_splits {α : Type} {R : α → α → Prop} {rs : List α} :
    rs.Pairwise R ↔ ∀ before r after, rs = before ++ r :: after → ∀ r' ∈ before, R r' r := by
  constructor
  · rintro h before r after rfl r' hr'
    exact (List.pairwise_append.mp h).2.2 r' hr' r (by simp)
  · intro h
    induction rs using List.reverseRecOn with
    | nil => exact .nil
    | append_singleton rs r ih =>
        refine List.pairwise_append.mpr ⟨ih ?_, List.pairwise_singleton R r, ?_⟩
        · rintro before r₁ after rfl
          exact h before r₁ (after ++ [r]) (by simp)
        · intro r' hr' r₁ hr₁
          rw [List.mem_singleton.mp hr₁]
          exact h rs r [] rfl r' hr'

section Sequence

variable [Ed25519] [Curve25519] [PKCS8] {paths : Paths}

/--
A configuration that was loaded from the files as they were, and announced. A
redial or a newly discovered endpoint announces the last one again.
-/
structure Reload (paths : Paths) where
  fs : FileSystem
  loaded : Loaded
  load_eq : load fs paths = .ok loaded
  endpoint : Option AddrPort
  clock : Clock

/-- One after the other. -/
def announceAll (p : Plane) (rs : List (Reload paths)) : Plane :=
  rs.foldl (fun p r => announceLocal p r.loaded r.endpoint r.clock) p

/-- **What is announced is the union of all configurations so far.** -/
theorem announceAll_spec (p : Plane) (rs : List (Reload paths)) :
    (announceAll p rs).nodeName = p.nodeName
      ∧ (∀ t, t ∈ announcedSubnets (announceAll p rs)
          ↔ t ∈ announcedSubnets p ∨ ∃ r ∈ rs, t ∈ r.loaded.texts)
      ∧ ∀ x t, t ∈ (announceAll p rs).g.nodeSubnets x
          ↔ t ∈ p.g.nodeSubnets x
            ∨ (x = toValidUTF8 p.nodeName ∧ ∃ r ∈ rs, t ∈ r.loaded.texts) := by
  induction rs using List.reverseRecOn with
  | nil => simp [announceAll]
  | append_singleton rs r ih =>
      obtain ⟨ihname, ihann, ihg⟩ := ih
      obtain ⟨hname, hann, hg⟩ :=
        announceLocal_spec (announceAll p rs) r.loaded r.endpoint r.clock
      have hstep : announceAll p (rs ++ [r])
          = announceLocal (announceAll p rs) r.loaded r.endpoint r.clock := by
        simp [announceAll]
      have hex : ∀ t, (∃ r' ∈ rs ++ [r], t ∈ r'.loaded.texts)
          ↔ (∃ r' ∈ rs, t ∈ r'.loaded.texts) ∨ t ∈ r.loaded.texts := by
        intro t
        simp only [List.mem_append, List.mem_singleton]
        constructor
        · rintro ⟨r', hr' | rfl, ht⟩
          · exact .inl ⟨r', hr', ht⟩
          · exact .inr ht
        · rintro (⟨r', hr', ht⟩ | ht)
          · exact ⟨r', .inl hr', ht⟩
          · exact ⟨r, .inr rfl, ht⟩
      refine ⟨by rw [hstep, hname, ihname], fun t => ?_, fun x t => ?_⟩
      · rw [hstep, hann, ihann, hex, or_assoc]
      · rw [hstep, hg, ihg, ihname, hex, or_assoc, ← and_or_left]

/-- The graph and the outbox say what the configuration says. -/
def Matches (p : Plane) (l : Loaded) : Prop :=
  p.g.nodeSubnets l.nodeName = l.texts ∧ announcedSubnets p = l.texts

theorem matches_iff {name : GoString} {priv : Option Ed25519Private}
    {lookup : Option (GoString → Option Ed25519Public)} {before : List (Reload paths)}
    {r : Reload paths} (hname : r.loaded.nodeName = name) :
    Matches (announceAll (newPlane name priv lookup) (before ++ [r])) r.loaded
      ↔ (∀ r' ∈ before, r'.loaded.texts ⊆ r.loaded.texts)
        ∧ (toValidUTF8 name = name ∨ r.loaded.subnets = []) := by
  obtain ⟨-, hann, hg⟩ := announceAll_spec (newPlane name priv lookup) (before ++ [r])
  have hann0 : ∀ t, t ∉ announcedSubnets (newPlane name priv lookup) := by
    rintro t ⟨env, henv, -⟩
    cases (GoMap.get?_empty _).symm.trans henv
  have hg0 : ∀ t, t ∉ (newPlane name priv lookup).g.nodeSubnets name := fun t ht => by
    have hnew := Graph.nodeSubnets_new name
    unfold newPlane at ht
    rw [hnew] at ht
    exact absurd ht (Finset.notMem_empty t)
  have hself : ∀ t ∈ r.loaded.texts, ∃ r' ∈ before ++ [r], t ∈ r'.loaded.texts :=
    fun t ht => ⟨r, by simp, ht⟩
  unfold Matches
  rw [hname]
  constructor
  · rintro ⟨hgraph, hout⟩
    constructor
    · -- what an earlier one announced is announced still
      intro r' hr' t ht
      rw [← Finset.mem_coe, ← hout]
      exact (hann t).mpr (.inr ⟨r', by simp [hr'], ht⟩)
    · by_cases hv : toValidUTF8 name = name
      · exact .inl hv
      · -- the graph has the subnets under another name
        refine .inr (Loaded.texts_eq_empty.mp (Finset.eq_empty_of_forall_notMem fun t ht => ?_))
        rw [← hgraph] at ht
        rcases (hg name t).mp ht with ht | ⟨heq, -⟩
        · exact hg0 t ht
        · exact hv heq.symm
  · rintro ⟨hsub, hv⟩
    have hall : ∀ t, (∃ r' ∈ before ++ [r], t ∈ r'.loaded.texts) ↔ t ∈ r.loaded.texts := by
      refine fun t => ⟨?_, hself t⟩
      rintro ⟨r', hr', ht⟩
      rcases List.mem_append.mp hr' with hr' | hr'
      · exact hsub r' hr' ht
      · rwa [List.mem_singleton.mp hr'] at ht
    constructor
    · ext t
      rw [hg name t, hall]
      rcases hv with hv | hnil
      · exact ⟨fun h => (h.resolve_left (hg0 t)).2, fun h => .inr ⟨hv.symm, h⟩⟩
      · rw [Loaded.texts_eq_empty.mpr hnil]
        exact ⟨fun h => (h.resolve_left (hg0 t)).2, fun h => absurd h (Finset.notMem_empty t)⟩
    · ext t
      rw [hann t, hall, Finset.mem_coe]
      exact ⟨fun h => h.resolve_left (hann0 t), .inr⟩

/--
**The announced subnets match the configuration after every reload exactly when
no configuration lacks a subnet of an earlier one** (and the node's name survives
JSON, unless there are no subnets at all).
-/
theorem reloads_match_iff {name : GoString} {priv : Option Ed25519Private}
    {lookup : Option (GoString → Option Ed25519Public)} {rs : List (Reload paths)}
    (hname : ∀ r ∈ rs, r.loaded.nodeName = name) :
    (∀ before r after, rs = before ++ r :: after →
        Matches (announceAll (newPlane name priv lookup) (before ++ [r])) r.loaded)
      ↔ rs.Pairwise (fun r r' => r.loaded.texts ⊆ r'.loaded.texts)
        ∧ (toValidUTF8 name = name ∨ ∀ r ∈ rs, r.loaded.subnets = []) := by
  rw [pairwise_iff_splits]
  constructor
  · intro h
    constructor
    · intro before r after hrs
      exact ((matches_iff (hname r (by simp [hrs]))).mp (h before r after hrs)).1
    · by_cases hv : toValidUTF8 name = name
      · exact .inl hv
      · refine .inr fun r hr => ?_
        obtain ⟨before, after, hrs⟩ := List.append_of_mem hr
        exact (((matches_iff (hname r hr)).mp (h before r after hrs)).2).resolve_left hv
  · rintro ⟨hgrow, hv⟩ before r after hrs
    have hr : r ∈ rs := by simp [hrs]
    exact (matches_iff (hname r hr)).mpr
      ⟨hgrow before r after hrs, hv.imp_right fun hnil => hnil r hr⟩

end Sequence

section Sample

attribute [local instance] clearEd25519 clearCurve25519 clearPKCS8

/-- The files of node `a` with these subnets in its configuration. -/
def sampleFiles (subnets : List String) : FileSystem :=
  .ofFiles [
    (sampleLoc ["gsnet.conf"],
      str "Name = a\n" ++ subnets.flatMap fun s => str "Subnet = " ++ str s ++ str "\n"),
    (sampleLoc ["ed25519_key.priv"], (sampleSigner 1).raw),
    (sampleLoc ["wg.priv"], (sampleWG 1).string)]

/-- What loading them gives; `prefixes` are the subnets parsed. -/
def sampleConfigured (subnets : List String) (prefixes : List Prefix) : Loaded :=
  { sampleLoaded .switch with
    conf := ⟨str "Name", str "a"⟩ :: subnets.map fun s => ⟨str "Subnet", str s⟩
    subnets := prefixes.map fun p => ⟨some p, none, Subnet.defaultWeight⟩ }

def sampleClock : Clock := ⟨1, fun _ => 1⟩

/-- One subnet, `10.1.0.0/24`. -/
def loadedOne : Reload samplePaths where
  fs := sampleFiles ["10.1.0.0/24"]
  loaded := sampleConfigured ["10.1.0.0/24"] [⟨.v4 0x0A010000, 24, rfl⟩]
  load_eq := by decide +kernel
  endpoint := none
  clock := sampleClock

/-- Another one added. -/
def loadedTwo : Reload samplePaths where
  fs := sampleFiles ["10.2.0.0/24", "10.1.0.0/24"]
  loaded := sampleConfigured ["10.2.0.0/24", "10.1.0.0/24"]
    [⟨.v4 0x0A020000, 24, rfl⟩, ⟨.v4 0x0A010000, 24, rfl⟩]
  load_eq := by decide +kernel
  endpoint := none
  clock := sampleClock

/-- None at all. -/
def loadedNone : Reload samplePaths where
  fs := sampleFiles []
  loaded := sampleConfigured [] []
  load_eq := by decide +kernel
  endpoint := none
  clock := sampleClock

theorem reloads_match_growing :
    Matches (announceAll (samplePlane "a" 1) [loadedOne, loadedTwo]) loadedTwo.loaded :=
  have hname : ∀ r ∈ [loadedOne, loadedTwo], r.loaded.nodeName = str "a" := by decide +kernel
  (reloads_match_iff hname).mpr ⟨by decide +kernel, .inl (by decide +kernel)⟩ [loadedOne] loadedTwo
    [] rfl

theorem withdrawn_subnet_stays :
    loadedOne.loaded.nodeName = str "a" ∧ loadedNone.loaded.nodeName = str "a"
      ∧ loadedNone.loaded.subnets = []
      ∧ str "10.1.0.0/24" ∈ (announceAll (samplePlane "a" 1) [loadedOne, loadedNone]).g.nodeSubnets
          (str "a")
      ∧ str "10.1.0.0/24" ∈ announcedSubnets
          (announceAll (samplePlane "a" 1) [loadedOne, loadedNone]) := by
  obtain ⟨-, hann, hg⟩ := announceAll_spec (samplePlane "a" 1) [loadedOne, loadedNone]
  have htext : str "10.1.0.0/24" ∈ loadedOne.loaded.texts := by decide +kernel
  have hvalid : str "a" = toValidUTF8 (samplePlane "a" 1).nodeName := by decide +kernel
  have hex : ∃ r ∈ [loadedOne, loadedNone], str "10.1.0.0/24" ∈ r.loaded.texts :=
    ⟨loadedOne, by simp, htext⟩
  refine ⟨rfl, rfl, rfl, ?_, ?_⟩
  · rw [hg]
    exact .inr ⟨hvalid, hex⟩
  · rw [hann]
    exact .inr hex

end Sample

end Gsnet.Daemon
