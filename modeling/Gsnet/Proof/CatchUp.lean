import Gsnet.Proof.PeerKeys

/-!
# The data plane catches up

Every accepted envelope is applied, and then a snapshot of the desired state is
built and handed to the reconciler, all in the goroutine the envelope came in on.
Nothing orders the goroutines, so a snapshot can be handed over after a newer one
and then it stays: the reconciler has no way to tell, and nobody tries again.

What is lost is what the invariant says: as long as the snapshot handed over last
is out of date, somebody still has to take a snapshot or to hand over one that is
not. A step keeps that, unless it hands over an old snapshot as the last of all.
Which snapshot is old is a matter of the schedule, so the model counts the envelopes
that were applied, and notes with a snapshot the count it was taken at.
-/

namespace Gsnet.Daemon

open Go Gossip Dataplane Lib

/-- How far the handling of an accepted envelope has come. -/
inductive UpdateStage where
  | called
  | applied
  /-- The state that is to be handed to the reconciler, built after so many `apply`s. -/
  | built (s : State) (applies : Nat)
  | done
  deriving DecidableEq

/-- The number of `apply`s before the snapshot was taken, while it is not handed over. -/
def UpdateStage.builtAfter : UpdateStage → Option Nat
  | .built _ applies => some applies
  | _ => none

inductive UpdateStep (ι : Type) where
  | apply (i : ι)
  | build (i : ι) (o : IterOrder)
  | reconcile (i : ι)

/-- A plane, the state handed to the reconciler last, and the goroutines. -/
structure Updating (ι : Type) where
  plane : Plane
  last : State
  stage : ι → UpdateStage
  /-- How many envelopes were applied; no goroutine looks at it. -/
  applies : Nat

namespace Updating

variable {ι : Type} [DecidableEq ι] (fs : FileSystem) (paths : Paths) (l : Loaded)

def start (p : Plane) (last : State) : Updating ι := ⟨p, last, fun _ => .called, 0⟩

/-- One step of the goroutine that handles `calls i`. -/
def act (calls : ι → Envelope) (st : Updating ι) : UpdateStep ι → Option (Updating ι)
  | .apply i =>
    if st.stage i = .called then
      match st.plane.tryApply (calls i) with
      | some p => some ⟨p, st.last, Function.update st.stage i .applied, st.applies + 1⟩
      -- the payload does not decode, and the listener is not called
      | none => some { st with stage := Function.update st.stage i .done }
    else none
  | .build i o =>
    if st.stage i = .applied ∧ o.Of st.plane.g then
      some { st with
        stage := Function.update st.stage i
          (.built (buildState fs paths l st.plane o) st.applies) }
    else none
  | .reconcile i =>
    match st.stage i with
    | .built s _ => some { st with last := s, stage := Function.update st.stage i .done }
    | _ => none

/-- The state is what `buildState` makes of the plane, in some order of iteration. -/
def UpToDate (p : Plane) (s : State) : Prop :=
  ∃ o : IterOrder, o.Of p.g ∧ s = buildState fs paths l p o

/-- No goroutine is between `apply` and the end of `Reconcile`. -/
def Quiet (st : Updating ι) : Prop := ∀ i, st.stage i = .called ∨ st.stage i = .done

/-- No envelope was applied since the goroutine built what it has still to hand over. -/
def Fresh (st : Updating ι) (i : ι) : Prop := (st.stage i).builtAfter = some st.applies

/--
The goroutine has applied its envelope and has not built, or has built after the last
envelope was applied and has not handed over.
-/
def Pending (st : Updating ι) (i : ι) : Prop := st.stage i = .applied ∨ st.Fresh i

/--
A goroutine that built before the last envelope was applied hands over only while
another one is pending.
-/
def Timely (st : Updating ι) : UpdateStep ι → Prop
  | .reconcile i => st.Fresh i ∨ ∃ j, j ≠ i ∧ st.Pending j
  | _ => True

instance (st : Updating ι) (i : ι) : Decidable (st.Fresh i) :=
  inferInstanceAs (Decidable (_ = _))

instance (st : Updating ι) (i : ι) : Decidable (st.Pending i) :=
  inferInstanceAs (Decidable (_ ∨ _))

instance [Fintype ι] (st : Updating ι) (a : UpdateStep ι) : Decidable (st.Timely a) :=
  match a with
  | .apply _ => inferInstanceAs (Decidable True)
  | .build _ _ => inferInstanceAs (Decidable True)
  | .reconcile _ => inferInstanceAs (Decidable (_ ∨ _))

/-- A snapshot was taken at some time, and is up to date if nothing was applied since. -/
def Dated (p : Plane) (applies : Nat) : UpdateStage → Prop
  | .built s n => n ≤ applies ∧ (n = applies → UpToDate fs paths l p s)
  | _ => True

structure Inv (st : Updating ι) : Prop where
  dated : ∀ i, Dated fs paths l st.plane st.applies (st.stage i)
  /-- The last state handed over is up to date, or one is still to come. -/
  covered : UpToDate fs paths l st.plane st.last ∨ ∃ i, st.Pending i

variable {fs paths l}

/-- An envelope that is applied makes every snapshot an old one. -/
theorem Dated.apply {p p' : Plane} {applies : Nat} {stage : UpdateStage}
    (h : Dated fs paths l p applies stage) : Dated fs paths l p' (applies + 1) stage := by
  cases stage with
  | built s n =>
      have hle : n ≤ applies := h.1
      exact ⟨by omega, fun heq => by omega⟩
  | called => trivial
  | applied => trivial
  | done => trivial

omit [DecidableEq ι] in
/-- **A snapshot that is fresh is up to date.** -/
theorem Inv.upToDate {st : Updating ι} (h : st.Inv fs paths l) {i : ι} {s : State} {n : Nat}
    (hs : st.stage i = .built s n) (hfresh : st.Fresh i) : UpToDate fs paths l st.plane s := by
  have hdated := h.dated i
  unfold Fresh at hfresh
  rw [hs] at hdated hfresh
  exact hdated.2 (Option.some.inj hfresh)

/-- Whoever is pending stays so while another goroutine moves and nothing is applied. -/
theorem Pending.other {st : Updating ι} {i j : ι} (hji : j ≠ i) (h : st.Pending j)
    (last : State) (stage : UpdateStage) :
    Pending { st with last := last, stage := Function.update st.stage i stage } j := by
  have hstage : Function.update st.stage i stage j = st.stage j := Function.update_of_ne hji _ _
  unfold Pending Fresh
  simp only [hstage]
  exact h

omit [DecidableEq ι] in
/-- A pending goroutine has begun and is not done. -/
theorem Pending.busy {st : Updating ι} {i : ι} (h : st.Pending i) :
    st.stage i ≠ .called ∧ st.stage i ≠ .done := by
  rcases h with h | h
  · rw [h]; decide
  · unfold Fresh at h
    constructor <;> intro heq <;> rw [heq] at h <;> cases h

omit [DecidableEq ι] in
theorem inv_start {p : Plane} {last : State} (h : UpToDate fs paths l p last) :
    (start p last : Updating ι).Inv fs paths l where
  dated := fun _ => trivial
  covered := .inl h

theorem inv_step {calls : ι → Envelope} {st st' : Updating ι} {a : UpdateStep ι}
    (h : st.Inv fs paths l) (hok : st.Timely a) (hact : st.act fs paths l calls a = some st') :
    st'.Inv fs paths l := by
  -- a goroutine that moves leaves the other snapshots alone
  have hdated : ∀ i {stage}, Dated fs paths l st.plane st.applies stage →
      ∀ j, Dated fs paths l st.plane st.applies (Function.update st.stage i stage j) := by
    intro i stage hstage
    rw [Function.forall_update_iff st.stage fun _ => Dated fs paths l st.plane st.applies]
    exact ⟨hstage, fun j _ => h.dated j⟩
  cases a with
  | apply i =>
      simp only [act] at hact
      split at hact
      · rename_i hcalled
        split at hact
        · rename_i p _
          cases hact
          refine ⟨?_, .inr ⟨i, .inl (Function.update_self _ _ _)⟩⟩
          rw [Function.forall_update_iff st.stage fun _ => Dated fs paths l p (st.applies + 1)]
          exact ⟨trivial, fun j _ => (h.dated j).apply⟩
        · cases hact
          refine ⟨hdated i trivial, ?_⟩
          -- nothing changed, and a goroutine that has not begun is not pending
          rcases h.covered with hlast | ⟨j, hj⟩
          · exact .inl hlast
          · have hji : j ≠ i := by
              rintro rfl
              exact hj.busy.1 hcalled
            exact .inr ⟨j, hj.other hji _ _⟩
      · cases hact
  | build i o =>
      simp only [act] at hact
      split at hact
      · rename_i hi
        cases hact
        have hfresh : (Function.update st.stage i
            (.built (buildState fs paths l st.plane o) st.applies) i).builtAfter
              = some st.applies := by
          rw [Function.update_self]
          rfl
        exact ⟨hdated i ⟨le_rfl, fun _ => ⟨o, hi.2, rfl⟩⟩, .inr ⟨i, .inr hfresh⟩⟩
      · cases hact
  | reconcile i =>
      simp only [act] at hact
      split at hact
      · rename_i s n hs
        cases hact
        refine ⟨hdated i trivial, ?_⟩
        rcases hok with hfresh | ⟨j, hji, hj⟩
        · exact .inl (h.upToDate hs hfresh)
        · exact .inr ⟨j, hj.other hji _ _⟩
      · cases hact

end Updating

open Updating

/--
**The data plane catches up in every run in which no goroutine that built before the
last `apply` is the last to hand over.**
-/
theorem timely_reconcile_catches_up {ι : Type} [DecidableEq ι] {fs : FileSystem} {paths : Paths}
    {l : Loaded} {calls : ι → Envelope} {p : Plane} {last : State} {st : Updating ι}
    (hstart : UpToDate fs paths l p last)
    (hrun : Reached (act fs paths l calls) Timely (start p last) st) (hquiet : st.Quiet) :
    UpToDate fs paths l st.plane st.last := by
  have hinv : st.Inv fs paths l :=
    hrun.invariant (inv_start hstart) (fun _ _ _ h hok hact => inv_step h hok hact)
  rcases hinv.covered with h | ⟨i, hi⟩
  · exact h
  · rcases hquiet i with hq | hq
    · exact absurd hq hi.busy.1
    · exact absurd hq hi.busy.2

section Sample

attribute [local instance] clearEd25519

/-- Two Hellos reach node `a`. -/
def twoHellos (i : Bool) : Envelope := bif i then helloOf "b" 2 else helloOf "c" 3

def nodeOrder (nodes : List String) : IterOrder := ⟨nodes.map str, fun _ => []⟩

/-- What node `a` has handed over before it knows of anybody. -/
def nobody : State :=
  buildState rivalFiles samplePaths (sampleLoaded .switch) (samplePlane "a" 1) (nodeOrder [])

theorem upToDate_nobody :
    UpToDate rivalFiles samplePaths (sampleLoaded .switch) (samplePlane "a" 1) nobody :=
  ⟨nodeOrder [], by decide +kernel, rfl⟩

/-- The later snapshot is handed over last. -/
theorem timely_reconcile_catches_up_in_turn :
    ∃ st : Updating Bool,
      Reached (act rivalFiles samplePaths (sampleLoaded .switch) twoHellos) Timely
          (start (samplePlane "a" 1) nobody) st
        ∧ st.last.peers.length = 2
        ∧ UpToDate rivalFiles samplePaths (sampleLoaded .switch) st.plane st.last := by
  have hrun : ∃ st : Updating Bool,
      Reached (act rivalFiles samplePaths (sampleLoaded .switch) twoHellos) Timely
          (start (samplePlane "a" 1) nobody) st
        ∧ (∀ i, st.stage i = .done) ∧ st.last.peers.length = 2 :=
    exists_reached_of_runActs [.apply true, .build true (nodeOrder ["b"]), .apply false,
      .build false (nodeOrder ["b", "c"]), .reconcile true, .reconcile false] (by decide +kernel)
  obtain ⟨st, hst, hdone, hlength⟩ := hrun
  exact ⟨st, hst, hlength, timely_reconcile_catches_up upToDate_nobody hst
    fun i => .inr (hdone i)⟩

/-- The earlier snapshot is handed over last, and the node that came second is no peer. -/
theorem outdated_snapshot_stays :
    UpToDate rivalFiles samplePaths (sampleLoaded .switch) (samplePlane "a" 1) nobody
      ∧ ∃ st : Updating Bool,
        Reached (act rivalFiles samplePaths (sampleLoaded .switch) twoHellos) (fun _ _ => True)
            (start (samplePlane "a" 1) nobody) st
          ∧ st.Quiet
          ∧ ¬ UpToDate rivalFiles samplePaths (sampleLoaded .switch) st.plane st.last := by
  refine ⟨upToDate_nobody, ?_⟩
  have hrun : ∃ st : Updating Bool,
      Reached (act rivalFiles samplePaths (sampleLoaded .switch) twoHellos) (fun _ _ => True)
          (start (samplePlane "a" 1) nobody) st
        ∧ (∀ i, st.stage i = .done) ∧ str "c" ∈ st.plane.g.nodeNames
        ∧ ∀ q ∈ st.last.peers, q.name ≠ str "c" :=
    exists_reached_of_runActs [.apply true, .build true (nodeOrder ["b"]), .apply false,
      .build false (nodeOrder ["b", "c"]), .reconcile false, .reconcile true] (by decide +kernel)
  obtain ⟨st, hst, hdone, hc, hlast⟩ := hrun
  refine ⟨st, hst, fun i => .inr (hdone i), ?_⟩
  rintro ⟨o, ho, heq⟩
  -- in whatever order it is built, the state has a peer for the second node
  have hother : str "c" ≠ (sampleLoaded .switch).nodeName := by decide
  have hgives : HostFileGives rivalFiles samplePaths (str "c") (sampleWG 3) :=
    hostKey_iff.mp ⟨[⟨str "WGPublicKey", (sampleWG 3).string⟩], by decide +kernel⟩
  obtain ⟨q, hq, hname, -⟩ := (peer_iff ho).mpr ⟨hc, hother, hgives⟩
  exact hlast q (heq ▸ hq) hname

end Sample

end Gsnet.Daemon
