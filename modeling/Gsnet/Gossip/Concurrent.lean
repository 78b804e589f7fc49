import Gsnet.Gossip.Announce
import Gsnet.Lib.Machine

/-!
# Calls that overlap

`Receive` runs once per connection goroutine and the `Announce*` methods are
called from several places, all on one plane. The mutex covers the update of the
tables and no more, so between any two of the steps below another call may run.
A call is given by its argument and by the stage it is in; a call that has not
begun cannot be told from one that has not taken its first step.
-/

namespace Gsnet.Gossip

open Go Lib

variable {ι : Type} [DecidableEq ι]

/-! ## `Receive` -/

inductive ReceiveStage where
  | called
  | verified
  | rejected
  | claimed
  | dropped
  | applied
  | sent
  deriving DecidableEq

inductive ReceiveStep (ι : Type) where
  | verify (i : ι)
  | claim (i : ι)
  | apply (i : ι)
  | broadcast (i : ι)
  deriving DecidableEq

/-- A plane and how far each call has come. -/
structure Receiving (ι : Type) where
  plane : Plane
  stage : ι → ReceiveStage

namespace Receiving

/-- No call has taken a step. -/
def start (p : Plane) : Receiving ι := ⟨p, fun _ => .called⟩

/-- The calls `Receive(calls i)`, one step of one of them. -/
def act [Ed25519] (calls : ι → Envelope) (st : Receiving ι) : ReceiveStep ι → Option (Receiving ι)
  | .verify i =>
    if st.stage i = .called then
      some ⟨st.plane, Function.update st.stage i
        (if st.plane.verify (calls i) = true then .verified else .rejected)⟩
    else none
  | .claim i =>
    if st.stage i = .verified then
      match st.plane.claim (calls i).id (calls i).ts with
      | some p => some ⟨p, Function.update st.stage i .claimed⟩
      | none => some ⟨st.plane, Function.update st.stage i .dropped⟩
    else none
  | .apply i =>
    if st.stage i = .claimed then
      some ⟨st.plane.apply (calls i), Function.update st.stage i .applied⟩
    else none
  | .broadcast i =>
    if st.stage i = .applied then some ⟨st.plane, Function.update st.stage i .sent⟩ else none

/-- **What a step does**, and the stage its call has to be in. -/
theorem act_cases [Ed25519] {calls : ι → Envelope} {st st' : Receiving ι} {a : ReceiveStep ι}
    (h : st.act calls a = some st') :
    (∃ i, a = .verify i ∧ st.stage i = .called
        ∧ ∃ s, (s = .verified ∨ s = .rejected) ∧ st' = ⟨st.plane, Function.update st.stage i s⟩)
      ∨ (∃ i, a = .claim i ∧ st.stage i = .verified
          ∧ ((Newer st.plane.seen (calls i).id (calls i).ts
              ∧ st' = ⟨{ st.plane with seen := st.plane.seen.set (calls i).id (calls i).ts },
                  Function.update st.stage i .claimed⟩)
            ∨ st' = ⟨st.plane, Function.update st.stage i .dropped⟩))
      ∨ (∃ i, a = .apply i ∧ st.stage i = .claimed
          ∧ st' = ⟨st.plane.apply (calls i), Function.update st.stage i .applied⟩)
      ∨ ∃ i, a = .broadcast i ∧ st.stage i = .applied
          ∧ st' = ⟨st.plane, Function.update st.stage i .sent⟩ := by
  cases a with
  | verify i =>
      simp only [act] at h
      split at h
      · rename_i hi
        cases h
        refine Or.inl ⟨i, rfl, hi, _, ?_, rfl⟩
        split
        · exact Or.inl rfl
        · exact Or.inr rfl
      · cases h
  | claim i =>
      simp only [act] at h
      split at h
      · rename_i hi
        refine Or.inr (Or.inl ⟨i, rfl, hi, ?_⟩)
        rw [Plane.claim_eq] at h
        by_cases hn : Newer st.plane.seen (calls i).id (calls i).ts
        · simp only [if_pos hn, Option.some.injEq] at h
          exact Or.inl ⟨hn, h.symm⟩
        · simp only [if_neg hn, Option.some.injEq] at h
          exact Or.inr h.symm
      · cases h
  | apply i =>
      simp only [act] at h
      split at h
      · rename_i hi
        cases h
        exact Or.inr (Or.inr (Or.inl ⟨i, rfl, hi, rfl⟩))
      · cases h
  | broadcast i =>
      simp only [act] at h
      split at h
      · rename_i hi
        cases h
        exact Or.inr (Or.inr (Or.inr ⟨i, rfl, hi, rfl⟩))
      · cases h

/-- The call has won its claim, whether or not it has gone on. -/
def Won (st : Receiving ι) (i : ι) : Prop :=
  st.stage i = .claimed ∨ st.stage i = .applied ∨ st.stage i = .sent

/-- The call has returned. -/
def Finished (st : Receiving ι) (i : ι) : Prop :=
  st.stage i = .rejected ∨ st.stage i = .dropped ∨ st.stage i = .sent

/-- **A call that nothing interrupts is `Plane.receive`.** -/
theorem act_alone [Ed25519] (calls : ι → Envelope) (st : Receiving ι) (i : ι)
    (h : st.stage i = .called) :
    ∃ labels st', runActs (act calls) st labels = some st' ∧ st'.Finished i
      ∧ st'.plane = st.plane.afterReceive (calls i) := by
  cases hv : st.plane.verify (calls i) with
  | false =>
      refine ⟨[.verify i], _, by simp [runActs, act, h, hv]; rfl, Or.inl (by simp), ?_⟩
      rw [Plane.afterReceive_of_not_verify hv]
  | true =>
      rw [Plane.afterReceive_of_verify hv]
      by_cases hn : Newer st.plane.seen (calls i).id (calls i).ts
      · refine ⟨[.verify i, .claim i, .apply i, .broadcast i], _,
          by simp [runActs, act, h, hv, Plane.claim_eq, hn]; rfl,
          Or.inr (Or.inr (by simp)), ?_⟩
        rw [if_pos hn]
        exact Plane.apply_withSeen st.plane (calls i) _
      · refine ⟨[.verify i, .claim i], _, by simp [runActs, act, h, hv, Plane.claim_eq, hn]; rfl,
          Or.inr (Or.inl (by simp)), ?_⟩
        rw [if_neg hn]

end Receiving

/-! ## `originate` -/

/-- A call, with the envelope it has minted once it has read the clock. -/
inductive OriginateStage where
  | called
  | stamped (env : Envelope)
  | stored (env : Envelope)
  | applied (env : Envelope)
  | sent (env : Envelope)
  deriving DecidableEq

inductive OriginateStep (ι : Type) where
  /-- The clock is read, and the envelope minted and signed. -/
  | stamp (i : ι) (ts : Int64)
  /-- Outbox and dedup table, under the lock. -/
  | store (i : ι)
  | apply (i : ι)
  | broadcast (i : ι)
  deriving DecidableEq

/-- A plane, how far each call has come, and what was applied locally, latest first. -/
structure Originating (ι : Type) where
  plane : Plane
  stage : ι → OriginateStage
  log : List Envelope

namespace Originating

def start (p : Plane) : Originating ι := ⟨p, fun _ => .called, []⟩

/-- The calls `originate` makes for the announcements, one step of one of them. -/
def act [Ed25519] (calls : ι → Announcement) (st : Originating ι) :
    OriginateStep ι → Option (Originating ι)
  | .stamp i ts =>
    if st.stage i = .called then
      let env := st.plane.mint ((calls i).id st.plane.nodeName) (calls i).kind
        ((calls i).body st.plane.nodeName) ts
      some { st with stage := Function.update st.stage i (.stamped env) }
    else none
  | .store i =>
    match st.stage i with
    | .stamped env =>
      some { st with
        plane := st.plane.store env
        stage := Function.update st.stage i (.stored env) }
    | _ => none
  | .apply i =>
    match st.stage i with
    | .stored env =>
      some ⟨st.plane.apply env, Function.update st.stage i (.applied env), env :: st.log⟩
    | _ => none
  | .broadcast i =>
    match st.stage i with
    | .applied env => some { st with stage := Function.update st.stage i (.sent env) }
    | _ => none

/-- **What a step does**, and the stage its call has to be in. -/
theorem act_cases [Ed25519] {calls : ι → Announcement} {st st' : Originating ι}
    {a : OriginateStep ι} (h : st.act calls a = some st') :
    (∃ i ts env, a = .stamp i ts ∧ st.stage i = .called
        ∧ st' = { st with stage := Function.update st.stage i (.stamped env) })
      ∨ (∃ i env, a = .store i ∧ st.stage i = .stamped env
          ∧ st' = { st with
              plane := st.plane.store env, stage := Function.update st.stage i (.stored env) })
      ∨ (∃ i env, a = .apply i ∧ st.stage i = .stored env
          ∧ st' = ⟨st.plane.apply env, Function.update st.stage i (.applied env), env :: st.log⟩)
      ∨ ∃ i env, a = .broadcast i ∧ st.stage i = .applied env
          ∧ st' = { st with stage := Function.update st.stage i (.sent env) } := by
  cases a with
  | stamp i ts =>
      simp only [act] at h
      split at h
      · rename_i hi
        cases h
        exact Or.inl ⟨i, ts, _, rfl, hi, rfl⟩
      · cases h
  | store i =>
      simp only [act] at h
      split at h
      · rename_i env hi
        cases h
        exact Or.inr (Or.inl ⟨i, env, rfl, hi, rfl⟩)
      · cases h
  | apply i =>
      simp only [act] at h
      split at h
      · rename_i env hi
        cases h
        exact Or.inr (Or.inr (Or.inl ⟨i, env, rfl, hi, rfl⟩))
      · cases h
  | broadcast i =>
      simp only [act] at h
      split at h
      · rename_i env hi
        cases h
        exact Or.inr (Or.inr (Or.inr ⟨i, env, rfl, hi, rfl⟩))
      · cases h

/-- No call is under way. -/
def Idle (st : Originating ι) : Prop := ∀ i, st.stage i = .called ∨ ∃ env, st.stage i = .sent env

/-- The envelope last applied locally under an ID. -/
def lastApplied (st : Originating ι) (id : GoString) : Option Envelope :=
  st.log.find? fun env => env.id = id

/-- **A call that nothing interrupts is `Plane.announce`.** -/
theorem act_alone [Ed25519] (calls : ι → Announcement) (st : Originating ι) (i : ι) (ts : Int64)
    (h : st.stage i = .called) :
    ∃ labels st', runActs (act calls) st labels = some st'
      ∧ st'.stage = Function.update st.stage i (.sent (st.plane.announce (calls i) ts).2)
      ∧ st'.plane = (st.plane.announce (calls i) ts).1 := by
  rw [Plane.announce_eq]
  exact ⟨[.stamp i ts, .store i, .apply i, .broadcast i], _, by simp [runActs, act, h]; rfl,
    by simp [Plane.originate], rfl⟩

end Originating

end Gsnet.Gossip
