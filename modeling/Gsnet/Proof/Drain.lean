import Gsnet.Proof.Streams

/-!
# When the server can stop

`Close`, and `Serve` when its context is cancelled, close the listener and every
registered connection and then wait for the goroutines that read. A connection that
has not sent its request is not registered, so it is not closed, and nothing limits
how long its goroutine waits for the first line. The wait therefore ends of itself
exactly when nobody is connected who has yet to say something.
-/

namespace Gsnet.Transport.Pool

open Go Gossip Lib

variable {ι κ : Type}

/-- What happens without anything from outside. -/
def Step.Own : Step ι κ → Prop
  | .write _ | .return _ | .finish _ => True
  | _ => False

/-- Every goroutine that reads has returned: `wg.Wait` does. -/
def Server.Drained (s : Server ι κ) : Prop := ∀ c k, s.conn c = some k → k.running = false

/-- Every goroutine that still reads is about to see an error. -/
def Server.Ready (s : Server ι κ) : Prop :=
  ∀ c k, s.conn c = some k → k.running = true → k.eof = true ∨ k.isOpen = false

variable [DecidableEq ι] [DecidableEq κ]

theorem Server.conn_stop {s s' : Server ι κ} (h : s.act .stop = some s') (c : ι) :
    s'.conn c = (s.conn c).map fun k => if c ∈ s.conns then k.close else k := by
  cases h
  rfl

/-- **A connection that says nothing keeps its goroutine**, whatever else the server does. -/
theorem Server.silent_step {s s' : Server ι κ} (hs : s.Sound) {c : ι} {k : Conn}
    (hk : s.conn c = some k) (hr : k.role = .unread) (hrun : k.running = true)
    (heof : k.eof = false) {a : Step ι κ} (ha : a.Own) (hact : s.act a = some s') :
    s'.conn c = some k := by
  cases a with
  | write b =>
      simp only [act] at hact
      split at hact
      · rename_i env line d todo snapshot hb
        split at hact
        · rename_i k' hk'
          cases hact
          have hcall := hs.calls b _ hb
          obtain ⟨k'', hk'', hr'', -⟩ := hcall.done d (hcall.todo d List.mem_cons_self)
          have hne : c ≠ d := by
            rintro rfl
            cases hk.symm.trans hk''
            exact absurd (hr.symm.trans hr'') (by decide)
          exact (Function.update_of_ne hne _ _).trans hk
        · cases hact
      · cases hact
  | «return» b =>
      simp only [act] at hact
      split at hact
      · cases hact
        exact hk
      · cases hact
  | finish d =>
      simp only [act] at hact
      split at hact
      · rename_i k' hk'
        split at hact
        · rename_i hg
          cases hact
          have hne : c ≠ d := by
            rintro rfl
            cases hk.symm.trans hk'
            have hopen := ((hs.conn c k hk).unread hr).2.2.2.2 hrun
            rcases hg.2 with he | he | he
            · exact absurd (heof.symm.trans he) (by decide)
            · exact absurd (hopen.symm.trans he) (by decide)
            · exact absurd (hr.symm.trans he.2) (by decide)
          exact (Function.update_of_ne hne _ _).trans hk
        · cases hact
      · cases hact
  | _ => exact ha.elim

/-- After `closeAll` only an unfinished request can keep a goroutine. -/
theorem Server.ready_stop {s s' : Server ι κ} (hs : s.Sound) (h : s.act .stop = some s')
    (hunread : ∀ c k, s.conn c = some k → k.role = .unread → k.running = true → k.eof = true) :
    s'.Ready := by
  intro c k' hk' hrun
  rw [conn_stop h] at hk'
  obtain ⟨k, hk, rfl⟩ := Option.map_eq_some_iff.mp hk'
  split at hrun
  · rename_i hc
    rw [if_pos hc]
    exact .inr rfl
  · rename_i hc
    rw [if_neg hc]
    left
    cases hr : k.role with
    | unread => exact hunread c k hk hr hrun
    | gossip => exact absurd ((hs.mem_iff hk).mpr ⟨hr, hrun⟩) hc
    | answered => exact absurd (((hs.conn c k hk).answered hr).2.symm.trans hrun) (by decide)

/-- One goroutine after the other returns. -/
theorem Server.exists_drained (cs : List ι) {s : Server ι κ} (h : s.Ready) :
    ∃ t : Server ι κ, Reached act (fun _ a => a.Own) s t ∧ t.Ready
      ∧ ∀ c ∈ cs, ∀ k, t.conn c = some k → k.running = false := by
  induction cs with
  | nil => exact ⟨s, .init, h, nofun⟩
  | cons c cs ih =>
      obtain ⟨t, ht, hready, hdone⟩ := ih
      by_cases hc : ∃ k, t.conn c = some k ∧ k.running = true
      · obtain ⟨k, hk, hrun⟩ := hc
        have hact : t.act (.finish c) = some ((t.setConn c k.finish).untrack c) := by
          simp only [act, hk]
          exact if_pos ⟨hrun, (hready c k hk hrun).imp_right .inl⟩
        have hconn : ∀ d k', ((t.setConn c k.finish).untrack c).conn d = some k' →
            k'.running = false ∨ (d ≠ c ∧ t.conn d = some k') := by
          intro d k' hk'
          have hk' : Function.update t.conn c (some k.finish) d = some k' := hk'
          by_cases hd : d = c
          · subst hd
            rw [Function.update_self] at hk'
            cases hk'
            exact .inl rfl
          · rw [Function.update_of_ne hd] at hk'
            exact .inr ⟨hd, hk'⟩
        have hown : (Step.finish c : Step ι κ).Own := trivial
        refine ⟨_, .step ht hown hact, fun d k' hk' hrun' => ?_, fun d hd k' hk' => ?_⟩
        · rcases hconn d k' hk' with hnot | ⟨-, hold⟩
          · exact absurd (hnot.symm.trans hrun') (by decide)
          · exact hready d k' hold hrun'
        · rcases hconn d k' hk' with hnot | ⟨hne, hold⟩
          · exact hnot
          · exact hdone d ((List.mem_cons.mp hd).resolve_left hne) k' hold
      · refine ⟨t, ht, hready, fun d hd k' hk' => ?_⟩
        rcases List.mem_cons.mp hd with rfl | hd
        · exact Bool.eq_false_iff.mpr fun hrun => hc ⟨k', hk', hrun⟩
        · exact hdone d hd k' hk'

/--
**Stopping comes to an end of itself exactly when no connection is open that has not
sent its request.** From the moment of `closeAll`, whatever was going on then, the
goroutines can all return without anything from outside just when every connection
whose request is not complete has been left by its far end. One client that connects
and stays silent keeps `Close` waiting.
-/
theorem close_returns_iff [Finite ι] {s s' : Server ι κ}
    (h : Reached Server.act (fun _ _ => True) Server.start s) (hstop : s.act .stop = some s') :
    (∃ t : Server ι κ, Reached Server.act (fun _ a => a.Own) s' t ∧ t.Drained)
      ↔ ∀ c k, s.conn c = some k → k.role = .unread → k.running = true → k.eof = true := by
  have hs := Server.sound_of_reached h
  constructor
  · rintro ⟨t, ht, hdrained⟩ c k hk hr hrun
    by_contra heof
    have heof : k.eof = false := Bool.not_eq_true _ ▸ heof
    have hk' : s'.conn c = some k := by
      rw [Server.conn_stop hstop, hk, Option.map_some, if_neg]
      exact fun hc => absurd (hr.symm.trans ((hs.mem_iff hk).mp hc).1) (by decide)
    -- the goroutine is there in every state the server comes to by itself
    have hinv : t.Sound ∧ t.conn c = some k :=
      @Reached.invariant _ _ _ _ _ _ (fun u => u.Sound ∧ u.conn c = some k)
        ⟨hs.step hstop, hk'⟩ (fun u a u' hu ha hact =>
          ⟨hu.1.step hact, Server.silent_step hu.1 hu.2 hr hrun heof ha hact⟩) ht
    exact absurd ((hdrained c k hinv.2).symm.trans hrun) (by decide)
  · intro hunread
    obtain ⟨cs, -, hcs⟩ := Finite.exists_univ_list ι
    obtain ⟨t, ht, -, hdone⟩ := Server.exists_drained cs (Server.ready_stop hs hstop hunread)
    exact ⟨t, ht, fun c k hk => hdone c (hcs c) k hk⟩

/-- A client that has connected and not said anything. -/
theorem close_returns_iff_silent : ∃ s s' : Server Bool Unit,
    Reached Server.act (fun _ _ => True) Server.start s ∧ s.act .stop = some s'
      ∧ ¬ ∃ t : Server Bool Unit, Reached Server.act (fun _ a => a.Own) s' t ∧ t.Drained := by
  obtain ⟨s, hs, hP⟩ : ∃ s : Server Bool Unit,
      Reached Server.act (fun _ _ => True) Server.start s ∧ s.conn true = some .accepted :=
    exists_reached_of_runActs [.accept true] (by decide +kernel)
  refine ⟨s, _, hs, rfl, fun hdrained => ?_⟩
  have := (close_returns_iff hs rfl).mp hdrained true .accepted hP rfl rfl
  cases this

end Gsnet.Transport.Pool
