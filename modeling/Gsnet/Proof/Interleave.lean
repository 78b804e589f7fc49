import Gsnet.Gossip.Concurrent
import Gsnet.Gossip.Register

/-!
# Overlapping calls on one plane

`claim` is atomic and so is the update of the outbox, but what they decide is
carried out after the lock is gone. Two calls for one ID can therefore change the
graph in the other order, and the older fact stays.

Both halves below have the same shape. The newest version of an ID recorded in
the table is either applied or still on its way (`pending` in the invariants), as
long as no call applies its own version after that one is through. That is the
condition under which the graph ends with the newest version; the samples end
with another one.
-/

namespace Gsnet.Proof

open Gsnet Go Gossip Lib

variable {ι : Type} [DecidableEq ι]

/-- A call in another stage than the one that moves is another call. -/
theorem update_other {β : Type} {f : ι → β} {i j : ι} {a b : β} (hi : f i = a) (hj : f j = b)
    (hba : b ≠ a) (c : β) : Function.update f i c j = b := by
  have hji : j ≠ i := by rintro rfl; exact hba (hj.symm.trans hi)
  rw [Function.update_of_ne hji, hj]

/-! ## `Receive` -/

section Receive

/--
No call applies its envelope once the newest one claimed under the ID has been
applied: the call that claimed it, possibly this one, is still at its claim.
-/
def Timely (calls : ι → Envelope) (st : Receiving ι) : ReceiveStep ι → Prop
  | .apply i => ∃ j, st.stage j = .claimed ∧ (calls j).id = (calls i).id
      ∧ st.plane.seen.get? (calls i).id = some (calls j).ts
  | _ => True

/-- What holds of the register `r`, written under the ID `k`, while calls overlap. -/
structure ReceiveInv (calls : ι → Envelope) {V : Type} (r : Register V) (k : GoString)
    (st : Receiving ι) : Prop where
  graph : st.plane.g.Inv
  /-- The table is at least as new as every claim won. -/
  below : ∀ i, st.Won i → ∃ t, st.plane.seen.get? (calls i).id = some t ∧ (calls i).ts ≤ t
  /-- A version is claimed once. -/
  once : ∀ i j, st.Won i → st.Won j → (calls i).id = (calls j).id → (calls i).ts = (calls j).ts →
    i = j
  /-- The newest version claimed is what the register holds, or its call has yet to apply it. -/
  pending : (∃ j, st.Won j ∧ (calls j).id = k) →
    ∃ j, st.Won j ∧ (calls j).id = k ∧ st.plane.seen.get? k = some (calls j).ts
      ∧ (st.stage j = .claimed ∨ r.write (calls j).fact = some (r.read st.plane))

theorem won_update (p : Plane) (st : Receiving ι) (i : ι) (s : ReceiveStage) (j : ι) :
    (Receiving.mk p (Function.update st.stage i s)).Won j
      ↔ if j = i then s = .claimed ∨ s = .applied ∨ s = .sent else st.Won j := by
  unfold Receiving.Won
  by_cases hj : j = i
  · subst hj; simp
  · simp [hj]

/-- A step of a call that is not at its claim, and that neither wins nor loses one. -/
theorem ReceiveInv.move {calls : ι → Envelope} {V : Type} {r : Register V} {k : GoString}
    {st : Receiving ι} (h : ReceiveInv calls r k st) {i : ι} {s : ReceiveStage}
    (hi : st.stage i ≠ .claimed) (hs : (s = .claimed ∨ s = .applied ∨ s = .sent) ↔ st.Won i) :
    ReceiveInv calls r k ⟨st.plane, Function.update st.stage i s⟩ := by
  have hwon : ∀ j, (Receiving.mk st.plane (Function.update st.stage i s)).Won j ↔ st.Won j := by
    intro j
    rw [won_update]
    split
    · rename_i hji
      rw [hji]; exact hs
    · exact Iff.rfl
  refine ⟨h.graph, fun j hj => h.below j ((hwon j).mp hj),
    fun j m hj hm => h.once j m ((hwon j).mp hj) ((hwon m).mp hm), ?_⟩
  rintro ⟨j, hj, hid⟩
  obtain ⟨m, hm, hmid, hseen, hst⟩ := h.pending ⟨j, (hwon j).mp hj, hid⟩
  refine ⟨m, (hwon m).mpr hm, hmid, hseen, hst.imp (fun hc => ?_) id⟩
  exact update_other rfl hc hi.symm _

/-- A claim that is won becomes the newest of its ID. -/
theorem ReceiveInv.claim {calls : ι → Envelope} {V : Type} {r : Register V} {k : GoString}
    {st : Receiving ι} (h : ReceiveInv calls r k st) {i : ι}
    (hn : Newer st.plane.seen (calls i).id (calls i).ts) :
    ReceiveInv calls r k
      ⟨{ st.plane with seen := st.plane.seen.set (calls i).id (calls i).ts },
        Function.update st.stage i .claimed⟩ := by
  -- whatever was won under this ID is older
  have hlt : ∀ j, st.Won j → (calls j).id = (calls i).id → (calls j).ts < (calls i).ts := by
    intro j hj hid
    obtain ⟨t, ht, hle⟩ := h.below j hj
    rw [hid] at ht
    exact lt_of_le_of_lt hle (hn t ht)
  refine ⟨h.graph, fun j hj => ?_, fun j m hj hm hid hts => ?_, fun hex => ?_⟩
  · rw [won_update] at hj
    show ∃ t, (st.plane.seen.set _ _).get? _ = some t ∧ _
    rw [GoMap.get?_set]
    by_cases hid : (calls j).id = (calls i).id
    · refine ⟨(calls i).ts, if_pos hid, ?_⟩
      split at hj
      · rename_i hji; rw [hji]
      · exact le_of_lt (hlt j hj hid)
    · have hji : j ≠ i := by rintro rfl; exact hid rfl
      rw [if_neg hji] at hj
      rw [if_neg hid]
      exact h.below j hj
  · -- the new claim is above every other, so nothing else has its time
    rw [won_update] at hj hm
    by_cases hji : j = i
    · by_cases hmi : m = i
      · rw [hji, hmi]
      · rw [if_neg hmi] at hm
        have := hlt m hm (by rw [← hid, hji])
        rw [← hts, hji] at this
        exact absurd this (lt_irrefl _)
    · rw [if_neg hji] at hj
      by_cases hmi : m = i
      · have := hlt j hj (by rw [hid, hmi])
        rw [hts, hmi] at this
        exact absurd this (lt_irrefl _)
      · rw [if_neg hmi] at hm
        exact h.once j m hj hm hid hts
  · show ∃ j, _ ∧ _ ∧ (st.plane.seen.set _ _).get? k = _ ∧ _
    rw [GoMap.get?_set]
    by_cases hk : k = (calls i).id
    · rw [if_pos hk]
      exact ⟨i, by rw [won_update]; simp, hk.symm, rfl, Or.inl (by simp)⟩
    · rw [if_neg hk]
      obtain ⟨j, hj, hid⟩ := hex
      have hji : j ≠ i := by rintro rfl; exact hk hid.symm
      rw [won_update, if_neg hji] at hj
      obtain ⟨m, hm, hmid, hseen, hst⟩ := h.pending ⟨j, hj, hid⟩
      have hmi : m ≠ i := by rintro rfl; exact hk hmid.symm
      refine ⟨m, by rw [won_update, if_neg hmi]; exact hm, hmid, hseen, ?_⟩
      refine hst.imp (fun hc => ?_) (fun hw => ?_)
      · simp [Function.update_of_ne hmi, hc]
      · exact hw.trans (congrArg some (r.read_seen _ _).symm)

/-- A timely application leaves the newest version in place or on its way. -/
theorem ReceiveInv.apply {calls : ι → Envelope} {V : Type} {r : Register V} {k : GoString}
    (hkey : ∀ i, (calls i).id = k → r.write (calls i).fact ≠ none)
    (hother : ∀ i, (calls i).id ≠ k → r.write (calls i).fact = none)
    {st : Receiving ι} (h : ReceiveInv calls r k st) {i : ι} (hi : st.stage i = .claimed)
    (hok : Timely calls st (.apply i)) :
    ReceiveInv calls r k ⟨st.plane.apply (calls i), Function.update st.stage i .applied⟩ := by
  have hwon : ∀ j, (Receiving.mk (st.plane.apply (calls i))
      (Function.update st.stage i .applied)).Won j ↔ st.Won j := by
    intro j
    rw [won_update]
    split
    · rename_i hji
      rw [hji]; exact iff_of_true (by simp) (Or.inl hi)
    · exact Iff.rfl
  refine ⟨Plane.inv_apply h.graph _, fun j hj => ?_, fun j m hj hm => ?_, fun hex => ?_⟩
  · rw [Plane.apply_seen]; exact h.below j ((hwon j).mp hj)
  · exact h.once j m ((hwon j).mp hj) ((hwon m).mp hm)
  · obtain ⟨j, hj, hid⟩ := hex
    obtain ⟨m, hm, hmid, hseen, hst⟩ := h.pending ⟨j, (hwon j).mp hj, hid⟩
    refine ⟨m, (hwon m).mpr hm, hmid, by rw [Plane.apply_seen]; exact hseen, ?_⟩
    by_cases hmi : m = i
    · -- the newest version is applied now
      subst hmi
      obtain ⟨v, hv⟩ := Option.ne_none_iff_exists'.mp (hkey m hmid)
      right
      rw [r.read_apply h.graph, hv]; rfl
    · by_cases hk : (calls i).id = k
      · -- an older one is, so the newest is still to come
        obtain ⟨j', hj', hid', hseen'⟩ := hok
        rw [hk, hseen] at hseen'
        have heq : m = j' := h.once m j' hm (Or.inl hj') (by rw [hmid, hid', hk])
          (Option.some.inj hseen')
        left
        rw [heq] at hmi ⊢
        simp [Function.update_of_ne hmi, hj']
      · refine hst.imp (fun hc => ?_) (fun hw => ?_)
        · simp [Function.update_of_ne hmi, hc]
        · rw [hw, r.read_apply h.graph, hother i hk]; rfl

/-- **The invariant is kept by every timely step.** -/
theorem receiveInv_step [Ed25519] {calls : ι → Envelope} {V : Type} {r : Register V}
    {k : GoString} (hkey : ∀ i, (calls i).id = k → r.write (calls i).fact ≠ none)
    (hother : ∀ i, (calls i).id ≠ k → r.write (calls i).fact = none)
    {st st' : Receiving ι} {a : ReceiveStep ι} (h : ReceiveInv calls r k st)
    (hok : Timely calls st a) (hact : st.act calls a = some st') : ReceiveInv calls r k st' := by
  rcases Receiving.act_cases hact with ⟨i, rfl, hi, s, hs, rfl⟩ | ⟨i, rfl, hi, ⟨hn, rfl⟩ | rfl⟩
    | ⟨i, rfl, hi, rfl⟩ | ⟨i, rfl, hi, rfl⟩
  · refine h.move (by rw [hi]; simp) (iff_of_false ?_ (by simp [Receiving.Won, hi]))
    rcases hs with rfl | rfl <;> simp
  · exact h.claim hn
  · exact h.move (by rw [hi]; simp) (iff_of_false (by simp) (by simp [Receiving.Won, hi]))
  · exact h.apply hkey hother hi hok
  · exact h.move (by rw [hi]; simp) (iff_of_true (by simp) (Or.inr (Or.inl hi)))

omit [DecidableEq ι] in
theorem receiveInv_start (calls : ι → Envelope) {V : Type} (r : Register V) (k : GoString)
    {p : Plane} (hp : p.g.Inv) : ReceiveInv calls r k (Receiving.start p) where
  graph := hp
  below := by intro i hi; simp [Receiving.Won, Receiving.start] at hi
  once := by intro i j hi; simp [Receiving.Won, Receiving.start] at hi
  pending := by rintro ⟨j, hj, _⟩; simp [Receiving.Won, Receiving.start] at hj

/--
**No stale overwrite in timely runs.** However the calls of `Receive` overlap, as
long as no call applies its envelope after the newest one claimed under the ID
has been applied, a subnet ends as the newest claimed envelope of its ID says:
in every state in which no call stands between its claim and its application.
-/
theorem timely_receives_keep_newest [Ed25519] (calls : ι → Envelope) (p : Plane)
    (hp : p.Reachable) (x s : GoString)
    (hid : ∀ i, (calls i).id = Plane.subnetID x s ↔ ∃ b, (calls i).fact = .subnet x s b)
    (st : Receiving ι)
    (hrun : Reached (Receiving.act calls) (Timely calls) (Receiving.start p) st)
    (hdone : ∀ i, st.stage i ≠ .claimed) (i : ι) (hwon : st.Won i)
    (hi : (calls i).id = Plane.subnetID x s)
    (hmax : ∀ j, st.Won j → (calls j).id = Plane.subnetID x s → (calls j).ts ≤ (calls i).ts) :
    s ∈ st.plane.g.nodeSubnets x ↔ (calls i).fact = .subnet x s true := by
  have hkey : ∀ i, (calls i).id = Plane.subnetID x s →
      (subnetRegister x s).write (calls i).fact ≠ none := by
    intro i hi
    obtain ⟨b, hb⟩ := (hid i).mp hi
    rw [hb]; simp [subnetRegister]
  have hother : ∀ i, (calls i).id ≠ Plane.subnetID x s →
      (subnetRegister x s).write (calls i).fact = none := by
    intro i hi
    cases hf : (calls i).fact with
    | subnet o n b =>
        have hne : ¬ (o = x ∧ n = s) := by
          rintro ⟨rfl, rfl⟩; exact hi ((hid i).mpr ⟨b, hf⟩)
        simp [subnetRegister, hne]
    | _ => rfl
  have hinv : ReceiveInv calls (subnetRegister x s) (Plane.subnetID x s) st :=
    hrun.invariant (receiveInv_start calls _ _ hp.inv)
      (fun _ _ _ h hok hact => receiveInv_step hkey hother h hok hact)
  obtain ⟨m, hm, hmid, hseen, hst⟩ := hinv.pending ⟨i, hwon, hi⟩
  -- the newest recorded is the newest claimed
  have hmi : m = i := by
    obtain ⟨t, ht, hle⟩ := hinv.below i hwon
    rw [hi, hseen] at ht
    refine hinv.once m i hm hwon (hmid.trans hi.symm) (le_antisymm (hmax m hm hmid) ?_)
    rw [Option.some.inj ht]; exact hle
  rw [hmi] at hst
  have hw := hst.resolve_left (hdone i)
  obtain ⟨b, hb⟩ := (hid i).mp hi
  rw [hb] at hw ⊢
  have hbr : b = decide (s ∈ st.plane.g.nodeSubnets x) := by
    simpa [subnetRegister] using hw
  cases b with
  | true => simpa using hbr.symm
  | false => simpa using hbr.symm

end Receive

section ReceiveSamples

attribute [local instance] clearEd25519

instance {ι : Type} [Fintype ι] (calls : ι → Envelope) (st : Receiving ι) (a : ReceiveStep ι) :
    Decidable (Timely calls st a) := by
  cases a <;> unfold Timely <;> infer_instance

/-- A subnet is announced and withdrawn, and both messages arrive at once. -/
def racing : Bool → Envelope
  | false => ((newPlane (str "a") none none).announceAddSubnet (str "10.1.0.0/24") 1).2
  | true => ((newPlane (str "a") none none).announceDelSubnet (str "10.1.0.0/24") 2).2

theorem racing_id (i : Bool) : (racing i).id = Plane.subnetID (str "a") (str "10.1.0.0/24")
    ↔ ∃ b, (racing i).fact = .subnet (str "a") (str "10.1.0.0/24") b := by
  refine iff_of_true ?_ ⟨!i, ?_⟩
  · revert i; decide +kernel
  · revert i; decide +kernel

/-- Both win their claims; `first` is applied first. -/
def raceLabels (first : Bool) : List (ReceiveStep Bool) :=
  [.verify false, .claim false, .verify true, .claim true, .apply first, .apply !first,
    .broadcast false, .broadcast true]

theorem timely_receives_keep_newest_race :
    ∃ st : Receiving Bool,
      Reached (Receiving.act racing) (Timely racing)
          (Receiving.start (newPlane (str "b") none none)) st
        ∧ (∀ i, st.Finished i) ∧ str "10.1.0.0/24" ∉ st.plane.g.nodeSubnets (str "a") := by
  obtain ⟨st, hrun, hsent⟩ :
      ∃ st : Receiving Bool,
        Reached (Receiving.act racing) (Timely racing)
            (Receiving.start (newPlane (str "b") none none)) st
          ∧ ∀ i, st.stage i = .sent :=
    exists_reached_of_runActs (raceLabels false) (by decide +kernel)
  have hle : ∀ j, (racing j).ts ≤ (racing true).ts := by decide +kernel
  refine ⟨st, hrun, fun i => Or.inr (Or.inr (hsent i)), ?_⟩
  rw [timely_receives_keep_newest racing _ (.new _ _ _) (str "a") (str "10.1.0.0/24") racing_id st
    hrun (fun i => by rw [hsent i]; simp) true (Or.inr (Or.inr (hsent true))) (by decide +kernel)
    (fun j _ _ => hle j)]
  decide +kernel

theorem stale_overwrite :
    ∃ st : Receiving Bool,
      Reached (Receiving.act racing) (fun _ _ => True)
          (Receiving.start (newPlane (str "b") none none)) st
        ∧ (∀ i, st.Finished i) ∧ (∀ i, st.Won i) ∧ (racing false).id = (racing true).id
        ∧ (racing false).ts < (racing true).ts
        ∧ (racing true).fact = .subnet (str "a") (str "10.1.0.0/24") false
        ∧ str "10.1.0.0/24" ∈ st.plane.g.nodeSubnets (str "a") := by
  obtain ⟨st, hrun, hsent, hmem⟩ :
      ∃ st : Receiving Bool,
        Reached (Receiving.act racing) (fun _ _ => True)
            (Receiving.start (newPlane (str "b") none none)) st
          ∧ (∀ i, st.stage i = .sent)
          ∧ str "10.1.0.0/24" ∈ st.plane.g.nodeSubnets (str "a") :=
    exists_reached_of_runActs (raceLabels true) (by decide +kernel)
  exact ⟨st, hrun, fun i => Or.inr (Or.inr (hsent i)),
    fun i => Or.inr (Or.inr (hsent i)), by decide +kernel, by decide +kernel, by decide +kernel,
    hmem⟩

end ReceiveSamples

/-! ## `originate` -/

section Originate

/--
No call stores a time below the recorded one, and no call applies its envelope
once the one in the outbox has been applied: that one is its own, or the call
that stored it is still to apply it.
-/
def Orderly (st : Originating ι) : OriginateStep ι → Prop
  | .store i => ∀ env, st.stage i = .stamped env →
      ∀ t, st.plane.seen.get? env.id = some t → t ≤ env.ts
  | .apply i => ∀ env, st.stage i = .stored env →
      ∀ o, st.plane.outbox.get? env.id = some o → o = env ∨ ∃ j, st.stage j = .stored o
  | _ => True

/-- The call has put `env` into the outbox, whether or not it has gone on. -/
def HasStored (st : Originating ι) (i : ι) (env : Envelope) : Prop :=
  st.stage i = .stored env ∨ st.stage i = .applied env ∨ st.stage i = .sent env

theorem hasStored_update {st : Originating ι} {i : ι} {s : OriginateStage} {j : ι}
    {env : Envelope} {p : Plane} {log : List Envelope}
    (h : HasStored ⟨p, Function.update st.stage i s, log⟩ j env) :
    (j = i ∧ (s = .stored env ∨ s = .applied env ∨ s = .sent env)) ∨ HasStored st j env := by
  by_cases hji : j = i
  · subst hji
    exact Or.inl ⟨rfl, by simpa [HasStored] using h⟩
  · exact Or.inr (by simpa [HasStored, Function.update_of_ne hji] using h)

/-- What holds of the tables and the local log while calls overlap. -/
structure OriginateInv (st : Originating ι) : Prop where
  /-- The dedup table records the times of the outbox, -/
  entry : ∀ id o, st.plane.outbox.get? id = some o →
    o.id = id ∧ st.plane.seen.get? id = some o.ts
  /-- and no others. -/
  recorded : ∀ id t, st.plane.seen.get? id = some t → ∃ o, st.plane.outbox.get? id = some o
  /-- The outbox is at least as new as everything stored. -/
  newest : ∀ i env, HasStored st i env →
    ∃ o, st.plane.outbox.get? env.id = some o ∧ env.ts ≤ o.ts
  /-- An entry of the outbox is what was last applied, or its call has yet to apply it. -/
  pending : ∀ id o, st.plane.outbox.get? id = some o →
    (∃ i, st.stage i = .stored o)
      ∨ (st.lastApplied id = some o ∧ ∃ i, st.stage i = .applied o ∨ st.stage i = .sent o)

omit [DecidableEq ι] in
theorem originateInv_start (name : GoString) (priv : Option Ed25519Private)
    (lookup : Option (GoString → Option Ed25519Public)) :
    OriginateInv (Originating.start (newPlane name priv lookup) : Originating ι) where
  entry := by intro id o h; simp [Originating.start, newPlane] at h
  recorded := by intro id t h; simp [Originating.start, newPlane] at h
  newest := by intro i env h; simp [HasStored, Originating.start] at h
  pending := by intro id o h; simp [Originating.start, newPlane] at h

/-- Reading the clock changes nothing yet. -/
theorem OriginateInv.stamp {st : Originating ι} (h : OriginateInv st) {i : ι}
    (hi : st.stage i = .called) (env : Envelope) :
    OriginateInv { st with stage := Function.update st.stage i (.stamped env) } := by
  refine ⟨h.entry, h.recorded, fun j f hj => ?_, fun id o ho => ?_⟩
  · rcases hasStored_update hj with ⟨_, hs⟩ | hj
    · simp at hs
    · exact h.newest j f hj
  · rcases h.pending id o ho with ⟨j, hj⟩ | ⟨hlast, j, hj⟩
    · exact Or.inl ⟨j, update_other hi hj (by simp) _⟩
    · exact Or.inr ⟨hlast, j, hj.imp (update_other hi · (by simp) _)
          (update_other hi · (by simp) _)⟩

/-- What is stored, and is not older, becomes the entry and is yet to be applied. -/
theorem OriginateInv.store {st : Originating ι} (h : OriginateInv st) {i : ι} {env : Envelope}
    (hi : st.stage i = .stamped env) (hok : Orderly st (.store i)) :
    OriginateInv { st with
      plane := st.plane.store env, stage := Function.update st.stage i (.stored env) } := by
  refine ⟨fun id o ho => ?_, fun id t ht => ?_, fun j f hj => ?_, fun id o ho => ?_⟩
  · simp only [Plane.store, GoMap.get?_set] at ho ⊢
    split at ho
    · rename_i hid
      cases ho
      exact ⟨hid.symm, if_pos hid⟩
    · rename_i hid
      rw [if_neg hid]; exact h.entry id o ho
  · simp only [Plane.store, GoMap.get?_set] at ht ⊢
    split at ht
    · rename_i hid
      exact ⟨env, if_pos hid⟩
    · rename_i hid
      rw [if_neg hid]; exact h.recorded id t ht
  · simp only [Plane.store, GoMap.get?_set]
    rcases hasStored_update hj with ⟨_, hs⟩ | hj
    · have hf : f = env := by simpa [eq_comm] using hs
      rw [hf, if_pos rfl]
      exact ⟨env, rfl, le_rfl⟩
    · obtain ⟨o, ho, hle⟩ := h.newest j f hj
      split
      · rename_i hid
        rw [hid] at ho
        -- replaced by one whose time is not below the recorded one
        exact ⟨env, rfl, le_trans hle (hok env hi o.ts (h.entry _ o ho).2)⟩
      · exact ⟨o, ho, hle⟩
  · simp only [Plane.store, GoMap.get?_set] at ho
    split at ho
    · cases ho
      exact Or.inl ⟨i, by simp⟩
    · rcases h.pending id o ho with ⟨j, hj⟩ | ⟨hlast, j, hj⟩
      · exact Or.inl ⟨j, update_other hi hj (by simp) _⟩
      · exact Or.inr ⟨hlast, j, hj.imp (update_other hi · (by simp) _)
          (update_other hi · (by simp) _)⟩

/-- An orderly application is of the entry, or before the one of the entry. -/
theorem OriginateInv.apply {st : Originating ι} (h : OriginateInv st) {i : ι} {env : Envelope}
    (hi : st.stage i = .stored env) (hok : Orderly st (.apply i)) :
    OriginateInv
      ⟨st.plane.apply env, Function.update st.stage i (.applied env), env :: st.log⟩ := by
  refine ⟨fun id o ho => ?_, fun id t ht => ?_, fun j f hj => ?_, fun id o ho => ?_⟩
  · rw [Plane.apply_outbox] at ho
    rw [Plane.apply_seen]; exact h.entry id o ho
  · rw [Plane.apply_seen] at ht
    rw [Plane.apply_outbox]; exact h.recorded id t ht
  · rw [Plane.apply_outbox]
    rcases hasStored_update hj with ⟨_, hs⟩ | hj
    · have hf : f = env := by simpa [eq_comm] using hs
      exact h.newest i f (by rw [hf]; exact Or.inl hi)
    · exact h.newest j f hj
  · rw [Plane.apply_outbox] at ho
    by_cases ho' : o = env
    · -- the entry itself is applied now
      have hid : env.id = id := by rw [← ho']; exact (h.entry id o ho).1
      refine Or.inr ⟨?_, i, Or.inl (by simp [ho'])⟩
      simp [Originating.lastApplied, hid, ho']
    · have hne : OriginateStage.stored o ≠ .stored env := by
        intro hc
        injection hc with hc
        exact ho' hc
      by_cases hid : env.id = id
      · -- another version is, so the call of the entry is still to come
        rcases hok env hi o (by rw [hid]; exact ho) with heq | ⟨j, hj⟩
        · exact absurd heq ho'
        · exact Or.inl ⟨j, update_other hi hj hne _⟩
      · rcases h.pending id o ho with ⟨j, hj⟩ | ⟨hlast, j, hj⟩
        · exact Or.inl ⟨j, update_other hi hj hne _⟩
        · refine Or.inr ⟨?_, j, hj.imp (update_other hi · (by simp) _)
          (update_other hi · (by simp) _)⟩
          rw [Originating.lastApplied, List.find?_cons_of_neg (by simpa using hid)]
          exact hlast

theorem OriginateInv.broadcast {st : Originating ι} (h : OriginateInv st) {i : ι}
    {env : Envelope} (hi : st.stage i = .applied env) :
    OriginateInv { st with stage := Function.update st.stage i (.sent env) } := by
  refine ⟨h.entry, h.recorded, fun j f hj => ?_, fun id o ho => ?_⟩
  · rcases hasStored_update hj with ⟨_, hs⟩ | hj
    · have hf : f = env := by simpa [eq_comm] using hs
      exact h.newest i f (by rw [hf]; exact Or.inr (Or.inl hi))
    · exact h.newest j f hj
  · rcases h.pending id o ho with ⟨j, hj⟩ | ⟨hlast, j, hj⟩
    · have hji : j ≠ i := by rintro rfl; rw [hi] at hj; cases hj
      exact Or.inl ⟨j, (Function.update_of_ne hji _ _).trans hj⟩
    · refine Or.inr ⟨hlast, j, ?_⟩
      by_cases hji : j = i
      · subst hji
        rw [hi] at hj
        rcases hj with hj | hj
        · cases hj; exact Or.inr (by simp)
        · cases hj
      · simpa [Function.update_of_ne hji] using hj

/-- **The invariant is kept by every orderly step.** -/
theorem originateInv_step [Ed25519] {calls : ι → Announcement} {st st' : Originating ι}
    {a : OriginateStep ι} (h : OriginateInv st) (hok : Orderly st a)
    (hact : st.act calls a = some st') : OriginateInv st' := by
  rcases Originating.act_cases hact with ⟨i, ts, env, rfl, hi, rfl⟩ | ⟨i, env, rfl, hi, rfl⟩
    | ⟨i, env, rfl, hi, rfl⟩ | ⟨i, env, rfl, hi, rfl⟩
  · exact h.stamp hi env
  · exact h.store hi hok
  · exact h.apply hi hok
  · exact h.broadcast hi

/-- No orderly step takes a recorded time back. -/
theorem seen_mono_step [Ed25519] {calls : ι → Announcement} {st st' : Originating ι}
    {a : OriginateStep ι} (hok : Orderly st a) (hact : st.act calls a = some st')
    {id : GoString} {t : Int64} (ht : st.plane.seen.get? id = some t) :
    ∃ t', st'.plane.seen.get? id = some t' ∧ t ≤ t' := by
  rcases Originating.act_cases hact with ⟨i, ts, env, rfl, hi, rfl⟩ | ⟨i, env, rfl, hi, rfl⟩
    | ⟨i, env, rfl, hi, rfl⟩ | ⟨i, env, rfl, hi, rfl⟩
  · exact ⟨t, ht, le_rfl⟩
  · simp only [Plane.store, GoMap.get?_set]
    split
    · rename_i hid
      exact ⟨env.ts, rfl, hok env hi t (by rw [← hid]; exact ht)⟩
    · exact ⟨t, ht, le_rfl⟩
  · exact ⟨t, by rw [Plane.apply_seen]; exact ht, le_rfl⟩
  · exact ⟨t, ht, le_rfl⟩

/--
**Origination is monotone in orderly runs.** No step takes a recorded time back;
and whenever no call is under way, the outbox holds under each ID the newest
envelope originated, which is the one last applied locally.
-/
theorem orderly_origination_monotone [Ed25519] (calls : ι → Announcement) (name : GoString)
    (priv : Option Ed25519Private) (lookup : Option (GoString → Option Ed25519Public))
    (st : Originating ι)
    (hrun : Reached (Originating.act calls) Orderly
      (Originating.start (newPlane name priv lookup)) st) :
    (∀ a st', Orderly st a → st.act calls a = some st' → ∀ id t,
        st.plane.seen.get? id = some t → ∃ t', st'.plane.seen.get? id = some t' ∧ t ≤ t')
      ∧ (st.Idle → ∀ i env, st.stage i = .sent env →
          ∃ o, st.plane.outbox.get? env.id = some o)
      ∧ (st.Idle → ∀ id o, st.plane.outbox.get? id = some o →
          o.id = id ∧ (∃ i, st.stage i = .sent o)
            ∧ (∀ i env, st.stage i = .sent env → env.id = id → env.ts ≤ o.ts)
            ∧ st.lastApplied id = some o) := by
  have hinv : OriginateInv st := hrun.invariant (originateInv_start name priv lookup)
    (fun _ _ _ h hok hact => originateInv_step h hok hact)
  refine ⟨fun a st' hok hact id t ht => seen_mono_step hok hact ht, fun _ i env hi => ?_,
    fun hidle id o ho => ⟨(hinv.entry id o ho).1, ?_⟩⟩
  · obtain ⟨o, ho, _⟩ := hinv.newest i env (Or.inr (Or.inr hi))
    exact ⟨o, ho⟩
  · have hmax : ∀ i env, st.stage i = .sent env → env.id = id → env.ts ≤ o.ts := by
      intro i env hi hid
      obtain ⟨o', ho', hle⟩ := hinv.newest i env (Or.inr (Or.inr hi))
      rw [hid, ho] at ho'
      rw [Option.some.inj ho']; exact hle
    -- when nothing is under way the entry has been applied and sent
    rcases hinv.pending id o ho with ⟨i, hi⟩ | ⟨hlast, i, hi⟩
    · rcases hidle i with hc | ⟨env, hc⟩ <;> rw [hi] at hc <;> cases hc
    · rcases hi with hi | hi
      · rcases hidle i with hc | ⟨env, hc⟩ <;> rw [hi] at hc <;> cases hc
      · exact ⟨⟨i, hi⟩, hmax, hlast⟩

/-- A call that nothing interrupts is orderly, if the clock has not gone back. -/
theorem orderly_alone [Ed25519] {calls : ι → Announcement} {start st : Originating ι}
    (hr : Reached (Originating.act calls) Orderly start st) {i : ι} (hi : st.stage i = .called)
    (ts : Int64)
    (hclock : ∀ t, st.plane.seen.get? ((calls i).id st.plane.nodeName) = some t → t ≤ ts) :
    ∃ st', Reached (Originating.act calls) Orderly start st'
      ∧ st'.stage = Function.update st.stage i (.sent (st.plane.announce (calls i) ts).2)
      ∧ st'.plane = (st.plane.announce (calls i) ts).1 := by
  have hmint : (st.plane.announce (calls i) ts).2 = st.plane.mint ((calls i).id st.plane.nodeName)
      (calls i).kind ((calls i).body st.plane.nodeName) ts := by
    rw [Plane.announce_eq]; rfl
  have hid := Plane.announce_id st.plane (calls i) ts
  have hts := Plane.announce_ts st.plane (calls i) ts
  rw [Plane.announce_plane]
  generalize (st.plane.announce (calls i) ts).2 = env at hmint hid hts
  have h1 : Reached (Originating.act calls) Orderly start
      ⟨st.plane, Function.update st.stage i (.stamped env), st.log⟩ :=
    .step (a := .stamp i ts) hr trivial (by simp [Originating.act, hi, hmint])
  have h2 : Reached (Originating.act calls) Orderly start
      ⟨st.plane.store env, Function.update st.stage i (.stored env), st.log⟩ := by
    refine .step (a := .store i) h1 (fun env' he t ht => ?_) (by simp [Originating.act])
    have henv : env = env' := by simpa using he
    rw [← henv] at ht ⊢
    rw [hts]; exact hclock t (by rw [← hid]; exact ht)
  have h3 : Reached (Originating.act calls) Orderly start
      ⟨(st.plane.store env).apply env, Function.update st.stage i (.applied env),
        env :: st.log⟩ := by
    refine .step (a := .apply i) h2 (fun env' he o ho => Or.inl ?_) (by simp [Originating.act])
    have henv : env = env' := by simpa using he
    rw [← henv] at ho ⊢
    have hself : (st.plane.store env).outbox.get? env.id = some env := GoMap.get?_set_self _ _ _
    rw [hself] at ho
    exact (Option.some.inj ho).symm
  exact ⟨_, .step (a := .broadcast i) h3 trivial (by simp [Originating.act]; rfl), rfl, rfl⟩

end Originate

section OriginateSamples

attribute [local instance] clearEd25519

/-- A subnet is announced and withdrawn. -/
def twoCalls : Bool → Announcement
  | false => .addSubnet (str "10.1.0.0/24")
  | true => .delSubnet (str "10.1.0.0/24")

/-- The ID of the subnet at the node `a`. -/
def twoCallsID : GoString := Plane.subnetID (str "a") (str "10.1.0.0/24")

theorem twoCalls_id (i : Bool) : (twoCalls i).id (str "a") = twoCallsID := by
  cases i <;> rfl

theorem orderly_origination_monotone_in_turn :
    ∃ st : Originating Bool,
      Reached (Originating.act twoCalls) Orderly
          (Originating.start (newPlane (str "a") none none)) st
        ∧ st.Idle ∧ ∃ o, st.plane.outbox.get? twoCallsID = some o ∧ o.ts = 2
          ∧ st.lastApplied twoCallsID = some o := by
  have h₀ : Reached (Originating.act twoCalls) Orderly
      (Originating.start (newPlane (str "a") none none))
      (Originating.start (newPlane (str "a") none none)) := .init
  obtain ⟨st₁, h₁, hstage₁, hplane₁⟩ := orderly_alone (i := false) h₀ rfl 1
    (fun t ht => by simp [Originating.start, newPlane] at ht)
  have hname : st₁.plane.nodeName = str "a" := by
    rw [hplane₁, Plane.announce_nodeName]; rfl
  have hseen : st₁.plane.seen.get? twoCallsID = some 1 := by
    rw [hplane₁, Plane.announce_seen]
    exact GoMap.get?_set_self _ _ _
  obtain ⟨st₂, h₂, hstage₂, hplane₂⟩ := orderly_alone (i := true) h₁
    (by rw [hstage₁]; rfl) 2
    (fun t ht => by
      rw [hname, twoCalls_id, hseen] at ht
      rw [← Option.some.inj ht]; decide)
  have hidle : st₂.Idle := by
    intro i
    rw [hstage₂, hstage₁]
    cases i with
    | false => exact Or.inr ⟨_, rfl⟩
    | true => exact Or.inr ⟨_, rfl⟩
  have hout : st₂.plane.outbox.get? twoCallsID = some (st₁.plane.announce (twoCalls true) 2).2 := by
    rw [hplane₂, Plane.announce_outbox, hname, twoCalls_id]
    exact GoMap.get?_set_self _ _ _
  refine ⟨st₂, h₂, hidle, _, hout, Plane.announce_ts _ _ _, ?_⟩
  exact ((orderly_origination_monotone twoCalls (str "a") none none st₂ h₂).2.2
    hidle _ _ hout).2.2.2

theorem clock_step_back :
    ∃ st st' : Originating Bool,
      Reached (Originating.act twoCalls) (fun _ _ => True)
          (Originating.start (newPlane (str "a") none none)) st
        ∧ Reached (Originating.act twoCalls) (fun _ _ => True) st st' ∧ st'.Idle
        ∧ st.plane.seen.get? twoCallsID = some 5 ∧ st'.plane.seen.get? twoCallsID = some 3
        ∧ ∃ o env, st'.plane.outbox.get? twoCallsID = some o ∧ st'.stage false = .sent env
          ∧ env.id = twoCallsID ∧ o.ts < env.ts := by
  obtain ⟨l₁, st₁, hrun₁, hstage₁, hplane₁⟩ := Originating.act_alone twoCalls
    (Originating.start (newPlane (str "a") none none)) false 5 rfl
  have hname : st₁.plane.nodeName = str "a" := by
    rw [hplane₁, Plane.announce_nodeName]; rfl
  obtain ⟨l₂, st₂, hrun₂, hstage₂, hplane₂⟩ := Originating.act_alone twoCalls st₁ true 3
    (by rw [hstage₁]; rfl)
  have hany : guarded (Originating.act twoCalls) (fun _ _ => True) = Originating.act twoCalls :=
    guarded_true
  rw [← hany] at hrun₁ hrun₂
  refine ⟨st₁, st₂, reached_of_runActs .init hrun₁, reached_of_runActs .init hrun₂, ?_, ?_, ?_,
    (st₁.plane.announce (twoCalls true) 3).2, _, ?_, by rw [hstage₂, hstage₁]; rfl, ?_, ?_⟩
  · intro i
    rw [hstage₂, hstage₁]
    cases i with
    | false => exact Or.inr ⟨_, rfl⟩
    | true => exact Or.inr ⟨_, rfl⟩
  · rw [hplane₁, Plane.announce_seen]
    exact GoMap.get?_set_self _ _ _
  · rw [hplane₂, Plane.announce_seen, hname, twoCalls_id]
    exact GoMap.get?_set_self _ _ _
  · rw [hplane₂, Plane.announce_outbox, hname, twoCalls_id]
    exact GoMap.get?_set_self _ _ _
  · rw [Plane.announce_id]; rfl
  · rw [Plane.announce_ts, Plane.announce_ts]; decide

end OriginateSamples

end Gsnet.Proof
