import Gsnet.GraphProof
import Gsnet.Gossip.Plane
import Gsnet.Lib.LastWriter

/-!
# What the operations of a plane do

An envelope is read once, as the fact it states; `apply` is then the effect of
that fact, and every lemma below is about a fact. Nothing later unfolds the
switch in `apply` or looks at a payload again.

The last section says what a whole sequence of `Receive` calls amounts to: the
dedup table picks the messages that get through, and those are applied in turn.
-/

namespace Gsnet.Gossip

open Go Lib

/-! ## What an envelope says -/

/-- What a payload states, once decoded. -/
inductive Fact where
  /-- A kind that is not applied, or a payload that does not decode. -/
  | nothing
  /-- `add_node`. -/
  | node (h : Hello)
  /-- `del_node`. -/
  | drop (name : GoString)
  /-- `add_edge` with its weight, or `del_edge`. -/
  | edge (a b : GoString) (w : Option Int64)
  /-- `add_subnet` or `del_subnet`. -/
  | subnet (owner subnet : GoString) (present : Bool)
  deriving DecidableEq

/-- What a payload of a kind states. -/
def readFact (kind : Kind) (payload : GoString) : Fact :=
  match kind with
  | .addNode =>
    match Hello.unmarshal payload with
    | some h => .node h
    | none => .nothing
  | .delNode =>
    match Hello.unmarshal payload with
    | some h => if h.name = [] then .nothing else .drop h.name
    | none => .nothing
  | .addEdge =>
    match AddEdge.unmarshal payload with
    | some e => .edge e.src e.dst (some e.weight)
    | none => .nothing
  | .delEdge =>
    match DelEdge.unmarshal payload with
    | some e => .edge e.src e.dst none
    | none => .nothing
  | .addSubnet =>
    match AddSubnet.unmarshal payload with
    | some s => .subnet s.owner s.subnet true
    | none => .nothing
  | .delSubnet =>
    match DelSubnet.unmarshal payload with
    | some s => .subnet s.owner s.subnet false
    | none => .nothing
  | _ => .nothing

/-- The fact an envelope states. -/
def Envelope.fact (env : Envelope) : Fact := readFact env.kind env.payload

namespace Plane

/-- What a fact does to a plane. -/
def enact (p : Plane) : Fact → Plane
  | .nothing => p
  | .node h => p.applyAddNode h
  | .drop name => p.applyDelNode { name := name }
  | .edge a b (some w) => { p with g := p.g.addEdge ⟨a, b, w⟩ }
  | .edge a b none => { p with g := p.g.delEdge a b }
  | .subnet o s true => { p with g := p.g.addSubnet o s }
  | .subnet o s false => { p with g := p.g.delSubnet o s }

/-- **Applying an envelope is enacting the fact it states.** -/
theorem apply_eq_enact (p : Plane) (env : Envelope) : p.apply env = p.enact env.fact := by
  unfold apply tryApply Envelope.fact readFact
  cases env.kind with
  | addNode => cases Hello.unmarshal env.payload <;> rfl
  | delNode =>
      cases Hello.unmarshal env.payload with
      | none => rfl
      | some h =>
          simp only [Option.bind_some]
          split <;> rfl
  | addEdge => cases AddEdge.unmarshal env.payload <;> rfl
  | delEdge => cases DelEdge.unmarshal env.payload <;> rfl
  | addSubnet => cases AddSubnet.unmarshal env.payload <;> rfl
  | delSubnet => cases DelSubnet.unmarshal env.payload <;> rfl
  | hello => rfl
  | ping => rfl
  | pong => rfl
  | unknown s h => rfl

/-! ## What a fact leaves alone -/

/-- Learning the key of a Hello, and what else its application writes. -/
theorem applyAddNode_eq (p : Plane) (h : Hello) :
    p.applyAddNode h = { p with
      g := p.g.addNode h.name
      pubKeys := match parseEd25519PublicBase64ish h.ed25519Public with
        | some pub => p.pubKeys.set h.name pub
        | none => p.pubKeys
      endpoints := if h.endpoint ≠ [] then p.endpoints.set h.name h.endpoint else p.endpoints
      inners := match parseHelloAddr h.innerAddr with
        | some a => p.inners.set h.name a
        | none => p.inners
      underlays := match parseHelloAddr h.underlayAddr with
        | some a => p.underlays.set h.name a
        | none => p.underlays } := by
  unfold applyAddNode
  cases parseEd25519PublicBase64ish h.ed25519Public <;> rfl

/-- No fact reaches the tables of the protocol, or looks at them. -/
theorem enact_withTables (p : Plane) (f : Fact) (s : GoMap GoString Int64)
    (o : GoMap GoString Envelope) :
    ({ p with seen := s, outbox := o } : Plane).enact f
      = { p.enact f with seen := s, outbox := o } := by
  cases f with
  | nothing => rfl
  | node h => simp only [enact, applyAddNode_eq]
  | drop name => rfl
  | edge a b w => cases w <;> rfl
  | subnet o s b => cases b <;> rfl

/-- The parts of a plane no fact can reach. -/
theorem enact_frame (p : Plane) (f : Fact) :
    (p.enact f).nodeName = p.nodeName ∧ (p.enact f).seen = p.seen
      ∧ (p.enact f).outbox = p.outbox ∧ (p.enact f).edPriv = p.edPriv
      ∧ (p.enact f).pubKeyFor = p.pubKeyFor := by
  cases f with
  | nothing => exact ⟨rfl, rfl, rfl, rfl, rfl⟩
  | node h => simp only [enact, applyAddNode_eq, and_self]
  | drop name => exact ⟨rfl, rfl, rfl, rfl, rfl⟩
  | edge a b w => cases w <;> exact ⟨rfl, rfl, rfl, rfl, rfl⟩
  | subnet o s b => cases b <;> exact ⟨rfl, rfl, rfl, rfl, rfl⟩

@[simp] theorem apply_nodeName (p : Plane) (env : Envelope) :
    (p.apply env).nodeName = p.nodeName := by
  rw [apply_eq_enact]; exact (enact_frame p _).1

@[simp] theorem apply_seen (p : Plane) (env : Envelope) : (p.apply env).seen = p.seen := by
  rw [apply_eq_enact]; exact (enact_frame p _).2.1

@[simp] theorem apply_outbox (p : Plane) (env : Envelope) : (p.apply env).outbox = p.outbox := by
  rw [apply_eq_enact]; exact (enact_frame p _).2.2.1

@[simp] theorem apply_edPriv (p : Plane) (env : Envelope) : (p.apply env).edPriv = p.edPriv := by
  rw [apply_eq_enact]; exact (enact_frame p _).2.2.2.1

@[simp] theorem apply_pubKeyFor (p : Plane) (env : Envelope) :
    (p.apply env).pubKeyFor = p.pubKeyFor := by
  rw [apply_eq_enact]; exact (enact_frame p _).2.2.2.2

/-- The dedup table can be written before or after. -/
theorem apply_withSeen (p : Plane) (env : Envelope) (s : GoMap GoString Int64) :
    ({ p with seen := s } : Plane).apply env = { p.apply env with seen := s } := by
  have h := enact_withTables p env.fact s p.outbox
  rw [apply_eq_enact, apply_eq_enact]
  show ({ p with seen := s, outbox := p.outbox } : Plane).enact env.fact = _
  rw [h, ← (enact_frame p env.fact).2.2.1]

/-! ## The graph -/

/-- The graph stays well formed. -/
theorem inv_enact {p : Plane} (h : p.g.Inv) (f : Fact) : (p.enact f).g.Inv := by
  cases f with
  | nothing => exact h
  | node hl => rw [enact, applyAddNode_eq]; exact Graph.inv_ensureNode h _
  | drop name => exact Graph.inv_delEdges h _
  | edge a b w =>
      cases w with
      | none => exact Graph.inv_delEdge h _ _
      | some w => exact Graph.inv_addEdge h _
  | subnet o s b =>
      cases b with
      | true => exact Graph.inv_addSubnet h _ _
      | false => exact Graph.inv_delSubnet h _ _

theorem inv_apply {p : Plane} (h : p.g.Inv) (env : Envelope) : (p.apply env).g.Inv := by
  rw [apply_eq_enact]; exact inv_enact h _

/-- No fact removes a node from the graph. -/
theorem nodes_enact_mono {p : Plane} {x : GoString} (h : (p.g.nodes.get? x).isSome) (f : Fact) :
    ((p.enact f).g.nodes.get? x).isSome := by
  cases f with
  | nothing => exact h
  | node hl => rw [enact, applyAddNode_eq]; exact Graph.ensureNode_mono _ h
  | drop name =>
      show ((p.g.delEdges _).nodes.get? x).isSome
      rw [Graph.nodes_delEdges]; exact h
  | edge a b w =>
      cases w with
      | none =>
          show ((p.g.delEdge a b).nodes.get? x).isSome
          rw [Graph.nodes_delEdge]; exact h
      | some w => exact Graph.addEdge_mono _ _ h
  | subnet o s b =>
      cases b with
      | true => exact Graph.addSubnet_mono _ _ _ h
      | false => exact Graph.delSubnet_mono _ _ _ h

theorem nodes_apply_mono {p : Plane} {x : GoString} (h : (p.g.nodes.get? x).isSome)
    (env : Envelope) : ((p.apply env).g.nodes.get? x).isSome := by
  rw [apply_eq_enact]; exact nodes_enact_mono h _

/-! ## Claiming and receiving -/

theorem claim_eq (p : Plane) (id : GoString) (ts : Int64) :
    p.claim id ts =
      if Newer p.seen id ts then some { p with seen := p.seen.set id ts } else none := by
  unfold claim
  cases h : p.seen.get? id with
  | none =>
      have hn : Newer p.seen id ts := by intro prev hp; rw [h] at hp; cases hp
      rw [if_pos hn]
  | some prev =>
      by_cases hle : ts ≤ prev
      · have hn : ¬ Newer p.seen id ts := fun hn => absurd (hn prev h) (not_lt.mpr hle)
        rw [if_neg hn]
        simp [hle]
      · have hn : Newer p.seen id ts := by
          intro q hq
          rw [h] at hq; cases hq
          exact not_le.mp hle
        rw [if_pos hn]
        simp [hle]

section Receive

variable [Ed25519]

/-- `Receive` on an envelope that fails verification changes nothing. -/
theorem afterReceive_of_not_verify {p : Plane} {env : Envelope} (h : p.verify env = false) :
    p.afterReceive env = p := by
  unfold afterReceive receive
  rw [if_pos h]

/-- **`Receive` on an envelope that passes verification.** -/
theorem afterReceive_of_verify {p : Plane} {env : Envelope} (h : p.verify env = true) :
    p.afterReceive env =
      if Newer p.seen env.id env.ts then
        { p.apply env with seen := p.seen.set env.id env.ts }
      else p := by
  unfold afterReceive receive
  rw [if_neg (by rw [h]; simp), claim_eq]
  by_cases hn : Newer p.seen env.id env.ts
  · simp only [if_pos hn]
    exact apply_withSeen p env _
  · simp only [if_neg hn]

/-- Receiving leaves the node's name, its key and its outbox alone. -/
theorem afterReceive_frame (p : Plane) (env : Envelope) :
    (p.afterReceive env).nodeName = p.nodeName ∧ (p.afterReceive env).edPriv = p.edPriv
      ∧ (p.afterReceive env).outbox = p.outbox := by
  cases hv : p.verify env with
  | false => rw [afterReceive_of_not_verify hv]; exact ⟨rfl, rfl, rfl⟩
  | true =>
      rw [afterReceive_of_verify hv]
      split
      · exact ⟨apply_nodeName _ _, apply_edPriv _ _, apply_outbox _ _⟩
      · exact ⟨rfl, rfl, rfl⟩

@[simp] theorem afterReceive_nodeName (p : Plane) (env : Envelope) :
    (p.afterReceive env).nodeName = p.nodeName := (afterReceive_frame p env).1

theorem inv_afterReceive {p : Plane} (h : p.g.Inv) (env : Envelope) :
    (p.afterReceive env).g.Inv := by
  cases hv : p.verify env with
  | false => rw [afterReceive_of_not_verify hv]; exact h
  | true =>
      rw [afterReceive_of_verify hv]
      split
      · exact inv_apply h env
      · exact h

theorem inv_receiveAll {p : Plane} (h : p.g.Inv) (envs : List Envelope) :
    (p.receiveAll envs).g.Inv := by
  induction envs generalizing p with
  | nil => exact h
  | cons env envs ih => exact ih (inv_afterReceive h env)

/-- The envelopes a run of `Receive` calls applies and hands on, in order. -/
def acceptedBy : Plane → List Envelope → List Envelope
  | _, [] => []
  | p, env :: envs =>
    match p.receive env with
    | .error _ => acceptedBy p envs
    | .ok (p', none) => acceptedBy p' envs
    | .ok (p', some e) => e :: acceptedBy p' envs

/-- `Receive` hands an envelope on exactly when it verifies and is news. -/
theorem receive_eq (p : Plane) (env : Envelope) :
    p.receive env =
      if p.verify env = true then
        .ok (p.afterReceive env, if Newer p.seen env.id env.ts then some env else none)
      else
        .error (str "gossip: signature verification failed for " ++ env.kind.text ++ str " from "
          ++ env.origin) := by
  unfold afterReceive receive
  cases hv : p.verify env with
  | false => simp
  | true =>
      simp only [Bool.true_eq_false, if_false, if_true, claim_eq]
      by_cases hn : Newer p.seen env.id env.ts
      · simp [hn]
      · simp [hn]

/-- On verified envelopes it is the dedup table that decides. -/
theorem acceptedBy_eq {p : Plane} {envs : List Envelope} (h : p.AllVerify envs) :
    p.acceptedBy envs = accepted Envelope.id Envelope.ts p.seen envs := by
  induction envs generalizing p with
  | nil => rfl
  | cons env envs ih =>
      obtain ⟨hv, hrest⟩ := h
      have ih := ih hrest
      rw [afterReceive_of_verify hv] at ih
      rw [acceptedBy, accepted, receive_eq, if_pos hv, afterReceive_of_verify hv]
      by_cases hn : Newer p.seen env.id env.ts
      · simp only [if_pos hn] at ih ⊢
        rw [ih]
      · simp only [if_neg hn] at ih ⊢
        exact ih

/--
**A run of verified `Receive` calls** applies the messages that get through, in
order, and leaves the table that let them through.
-/
theorem receiveAll_eq {p : Plane} {envs : List Envelope} (h : p.AllVerify envs) :
    p.receiveAll envs =
      { (accepted Envelope.id Envelope.ts p.seen envs).foldl apply p with
        seen := tableAfter Envelope.id Envelope.ts p.seen envs } := by
  induction envs generalizing p with
  | nil => rfl
  | cons env envs ih =>
      obtain ⟨hv, hrest⟩ := h
      have hcons : p.receiveAll (env :: envs) = (p.afterReceive env).receiveAll envs := rfl
      rw [hcons, ih hrest, accepted, tableAfter, afterReceive_of_verify hv]
      by_cases hn : Newer p.seen env.id env.ts
      · simp only [if_pos hn, List.foldl_cons]
        generalize p.seen.set env.id env.ts = s
        generalize accepted Envelope.id Envelope.ts s envs = l
        generalize tableAfter Envelope.id Envelope.ts s envs = t
        generalize p.apply env = q
        -- the table does not matter to `apply`, so it can be written last
        have key : ∀ (l : List Envelope) (q : Plane),
            ({ l.foldl apply { q with seen := s } with seen := t } : Plane)
              = { l.foldl apply q with seen := t } := by
          intro l
          induction l with
          | nil => intro q; rfl
          | cons e l ih =>
              intro q
              rw [List.foldl_cons, List.foldl_cons, apply_withSeen, ih]
        exact key l q
      · simp only [if_neg hn]

end Receive

end Plane

end Gsnet.Gossip
