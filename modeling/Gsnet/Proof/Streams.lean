import Gsnet.Transport.Server

/-!
# What arrives on a gossip connection

A connection can be lost at any byte and any number of calls of `Broadcast` write to
it at a time. What the far end decodes is nevertheless a first part of what was
written to this connection, in order and undamaged: a line is written under the
connection's lock, and once a line has been cut off the writer keeps its error.

What no step takes back is `Grows`: a connection that speaks gossip goes on doing so,
what was written stays written, and a writer that has failed has failed for good.
-/

namespace Gsnet.Transport.Pool

open Go Gossip Lib

/-! ## One connection -/

namespace Conn

/-- What the far end reads before the first envelope. -/
def lead (k : Conn) : GoString := if k.outboundAddr = [] then [] else greeting

/-- The lines of what was written. -/
def lines (k : Conn) : List GoString := k.sent.filterMap Envelope.broadcast

/-- What is true of a connection at any time. -/
structure Sound (k : Conn) : Prop where
  settled : k.w.Settled
  unread : k.role = .unread → k.w.sock.wire = [] ∧ k.outboundAddr = [] ∧ k.sent = []
    ∧ k.w.failed = false ∧ (k.running = true → k.isOpen = true)
  gossip : k.role = .gossip → ∃ tail, k.w.sock.wire = k.lead ++ (k.lines.flatten ++ tail)
    ∧ 0x0A ∉ tail ∧ (k.w.failed = false → tail = [])
  answered : k.role = .answered → k.w.sock.wire <+: k.reply ∧ k.running = false
  failed : k.w.failed = true → k.isOpen = false

/-- What no step takes back. -/
structure Grows (k k' : Conn) : Prop where
  gossip : k.role = .gossip → k'.role = .gossip
  sent : k.sent <+: k'.sent
  failed : k.w.failed = true → k'.w.failed = true

theorem Grows.refl (k : Conn) : k.Grows k := ⟨id, List.prefix_refl _, id⟩

theorem sound_accepted : accepted.Sound :=
  ⟨.inl rfl, fun _ => ⟨rfl, rfl, rfl, rfl, fun _ => rfl⟩, nofun, nofun, nofun⟩

theorem sound_dialed {addr : GoString} (h : addr ≠ []) : (dialed addr).Sound where
  settled := .inl rfl
  unread h := by cases h
  gossip _ := ⟨[], by simp [lead, dialed, lines, h, Socket.write, Socket.fits, Socket.fresh,
    Writer.new], by simp, fun _ => rfl⟩
  answered h := by cases h
  failed h := by cases h

theorem Sound.close {k : Conn} (h : k.Sound) (hr : k.role = .gossip) : k.close.Sound :=
  ⟨h.settled, fun hu => absurd (hr.symm.trans hu) (by decide), h.gossip, h.answered, fun _ => rfl⟩

theorem Sound.finish {k : Conn} (h : k.Sound) : k.finish.Sound := by
  refine ⟨h.settled, fun hu => ?_, h.gossip, fun hr => ⟨(h.answered hr).1, rfl⟩, fun _ => rfl⟩
  obtain ⟨hwire, haddr, hsent, hf, -⟩ := h.unread hu
  exact ⟨hwire, haddr, hsent, hf, nofun⟩

/-- The connection is lost or left: nothing is written by that. -/
theorem Sound.lost {k : Conn} (h : k.Sound) (room : Option Nat) :
    { k with w := { k.w with sock := { k.w.sock with room := room } }, eof := true }.Sound :=
  ⟨h.settled, h.unread, h.gossip, h.answered, h.failed⟩

theorem isLine_broadcast {e : Envelope} {line : GoString} (h : e.broadcast = some line) :
    IsLine line := by
  obtain ⟨text, ht, rfl⟩ := Option.map_eq_some_iff.mp h
  exact ⟨text, rfl, (Envelope.printable_marshal ht).notMem (by decide)⟩

theorem isLine_of_mem_lines {k : Conn} {l : GoString} (h : l ∈ k.lines) : IsLine l := by
  obtain ⟨e, -, he⟩ := List.mem_filterMap.mp h
  exact isLine_broadcast he

theorem put_of_failed {k : Conn} {line : GoString} (h : (k.w.send line).failed = true)
    (env : Envelope) : k.put env line = { k with w := k.w.send line }.close :=
  if_pos h

theorem put_of_sent {k : Conn} {line : GoString} (h : (k.w.send line).failed = false)
    (env : Envelope) :
    k.put env line = { k with w := k.w.send line, sent := k.sent ++ [env] } :=
  if_neg (by rw [h]; decide)

/-- **Writing an envelope**: its line is added whole, or the connection carries no more. -/
theorem Sound.put {k : Conn} (h : k.Sound) (hr : k.role = .gossip) {env : Envelope}
    {line : GoString} (hl : env.broadcast = some line) : (k.put env line).Sound := by
  have hline := isLine_broadcast hl
  have hs := Writer.send_cases h.settled hline.ne_nil
  obtain ⟨tail, hwire, htail, hclean⟩ := h.gossip hr
  have hsettled := hs.settled
  rcases hs with ⟨hw, hw', -, hsent⟩ | ⟨t, hw', ht, hlt, hsent⟩ | ⟨hw, heq⟩
  · rw [put_of_sent hw']
    refine ⟨hsettled, fun hu => absurd (hr.symm.trans hu) (by decide), fun _ => ?_,
      fun ha => absurd (hr.symm.trans ha) (by decide),
      fun hf => absurd (hw'.symm.trans hf) (by decide)⟩
    refine ⟨[], ?_, by simp, fun _ => rfl⟩
    have hlines : (k.sent ++ [env]).filterMap Envelope.broadcast = k.lines ++ [line] := by
      rw [List.filterMap_append, List.filterMap_cons_some hl]
      rfl
    show (k.w.send line).sock.wire
      = k.lead ++ (((k.sent ++ [env]).filterMap Envelope.broadcast).flatten ++ [])
    rw [hsent, hwire, hclean hw, hlines]
    simp
  · rw [put_of_failed hw']
    refine ⟨hsettled, fun hu => absurd (hr.symm.trans hu) (by decide), fun _ => ?_,
      fun ha => absurd (hr.symm.trans ha) (by decide), fun _ => rfl⟩
    refine ⟨tail ++ t, ?_, ?_, fun hf => absurd (hf.symm.trans hw') (by decide)⟩
    · show (k.w.send line).sock.wire = k.lead ++ (k.lines.flatten ++ (tail ++ t))
      rw [hsent, hwire]
      simp
    · rw [List.mem_append]
      exact fun hm => hm.elim htail (hline.notMem_of_cut ht hlt)
  · rw [put_of_failed (heq.symm ▸ hw), heq]
    exact h.close hr

theorem Grows.put {k : Conn} (h : k.w.Settled) (env : Envelope) {line : GoString}
    (hne : line ≠ []) : k.Grows (k.put env line) := by
  cases hf : (k.w.send line).failed with
  | true =>
      rw [put_of_failed hf]
      exact ⟨id, List.prefix_refl _, fun _ => hf⟩
  | false =>
      rw [put_of_sent hf]
      refine ⟨id, List.prefix_append _ _, fun hw => ?_⟩
      rcases Writer.send_cases h hne with ⟨hw', -⟩ | ⟨t, hw', -⟩ | ⟨-, heq⟩
      · exact absurd (hw.symm.trans hw') (by decide)
      · exact hw'
      · show (k.w.send line).failed = true
        rw [heq]
        exact hw

/-- The envelope is among what was written, or the connection has failed. -/
theorem mem_sent_put (k : Conn) (env : Envelope) (line : GoString) :
    env ∈ (k.put env line).sent ∨ (k.put env line).w.failed = true := by
  cases hf : (k.w.send line).failed with
  | true =>
      rw [put_of_failed hf]
      exact .inr hf
  | false =>
      rw [put_of_sent hf]
      exact .inl (List.mem_append_right _ (List.mem_singleton_self _))

theorem running_put (k : Conn) (env : Envelope) (line : GoString) :
    (k.put env line).running = k.running := by
  cases hf : (k.w.send line).failed with
  | true => rw [put_of_failed hf]; rfl
  | false => rw [put_of_sent hf]

theorem Sound.answer {k : Conn} (h : k.Sound) (hr : k.role = .unread) (reply : GoString) :
    (k.answer reply).Sound := by
  obtain ⟨hwire, -, -, hf, -⟩ := h.unread hr
  refine ⟨?_, nofun, nofun, fun _ => ⟨?_, rfl⟩, fun _ => rfl⟩
  · show Writer.Settled { (if reply = [] then k.w else k.w.send reply) with sock := _ }
    split
    · exact h.settled
    · rename_i hne
      exact (Writer.send_cases h.settled hne).settled
  · show (if reply = [] then k.w else k.w.send reply).sock.wire <+: reply
    split
    · rw [hwire]
      exact List.nil_prefix
    · rename_i hne
      rcases Writer.send_cases h.settled hne with ⟨-, -, -, hs⟩ | ⟨t, -, ht, -, hs⟩ | ⟨hw, -⟩
      · rw [hs, hwire]
        exact List.prefix_refl _
      · rw [hs, hwire]
        exact ht
      · exact absurd (hf.symm.trans hw) (by decide)

end Conn

/-! ## All of them -/

namespace Server

variable {ι κ : Type}

/-- What is true of a call of `Broadcast` that has come some way. -/
structure Covers (conn : ι → Option Conn) (call : Cast ι) : Prop where
  line : call.env.broadcast = some call.line
  todo : ∀ c ∈ call.todo, c ∈ call.snapshot
  done : ∀ c ∈ call.snapshot, ∃ k, conn c = some k ∧ k.role = .gossip
    ∧ (c ∈ call.todo ∨ call.env ∈ k.sent ∨ k.w.failed = true)

structure Sound (s : Server ι κ) : Prop where
  conn : ∀ c k, s.conn c = some k → k.Sound
  registered : ∀ c, c ∈ s.conns ↔ ∃ k, s.conn c = some k ∧ k.role = .gossip ∧ k.running = true
  calls : ∀ b call, s.cast b = some call → Covers s.conn call

theorem sound_start : (start : Server ι κ).Sound where
  conn _ _ h := by cases h
  registered c := by simp [start]
  calls _ _ h := by cases h

/-- What connections do not take back leaves a call where it was. -/
theorem Covers.grows {conn conn' : ι → Option Conn} {call : Cast ι} (h : Covers conn call)
    (hg : ∀ c k, conn c = some k → ∃ k', conn' c = some k' ∧ k.Grows k') : Covers conn' call := by
  refine ⟨h.line, h.todo, fun c hc => ?_⟩
  obtain ⟨k, hk, hr, hdone⟩ := h.done c hc
  obtain ⟨k', hk', hgrows⟩ := hg c k hk
  refine ⟨k', hk', hgrows.gossip hr, ?_⟩
  rcases hdone with hd | hd | hd
  · exact .inl hd
  · exact .inr (.inl (hgrows.sent.subset hd))
  · exact .inr (.inr (hgrows.failed hd))

theorem Sound.notMem_of_none {s : Server ι κ} (h : s.Sound) {c : ι} (hc : s.conn c = none) :
    c ∉ s.conns := by
  intro hm
  obtain ⟨k, hk, -⟩ := (h.registered c).mp hm
  cases hc.symm.trans hk

theorem Sound.mem_iff {s : Server ι κ} (h : s.Sound) {c : ι} {k : Conn} (hk : s.conn c = some k) :
    c ∈ s.conns ↔ k.role = .gossip ∧ k.running = true := by
  rw [h.registered]
  refine ⟨?_, fun hr => ⟨k, hk, hr⟩⟩
  rintro ⟨k', hk', hr⟩
  cases hk.symm.trans hk'
  exact hr

/-- A call goes on, or another begins or ends. -/
theorem Sound.setCast [DecidableEq κ] {s : Server ι κ} (h : s.Sound) {b : κ}
    {call : Option (Cast ι)}
    (hcall : ∀ x, call = some x → Covers s.conn x) : (s.setCast b call).Sound := by
  refine ⟨h.conn, h.registered, fun b' x hx => ?_⟩
  have hx' : Function.update s.cast b call b' = some x := hx
  by_cases hb : b' = b
  · subst hb
    rw [Function.update_self] at hx'
    exact hcall x hx'
  · rw [Function.update_of_ne hb] at hx'
    exact h.calls b' x hx'

variable [DecidableEq ι]

theorem grows_update {conn : ι → Option Conn} {c : ι} {k' : Conn}
    (hg : ∀ k, conn c = some k → k.Grows k') (d : ι) (k : Conn) (hk : conn d = some k) :
    ∃ k'', Function.update conn c (some k') d = some k'' ∧ k.Grows k'' := by
  by_cases hd : d = c
  · subst hd
    exact ⟨k', Function.update_self _ _ _, hg k hk⟩
  · exact ⟨k, by rw [Function.update_of_ne hd]; exact hk, .refl k⟩

/-- **One connection changes**, and is registered just when it speaks gossip and is read. -/
theorem Sound.move {s : Server ι κ} (h : s.Sound) {c : ι} {k' : Conn} {conns' : Finset ι}
    (hk' : k'.Sound) (hg : ∀ k, s.conn c = some k → k.Grows k')
    (hc : c ∈ conns' ↔ k'.role = .gossip ∧ k'.running = true)
    (hother : ∀ d, d ≠ c → (d ∈ conns' ↔ d ∈ s.conns)) :
    Sound { s with conn := Function.update s.conn c (some k'), conns := conns' } := by
  refine ⟨fun d k hk => ?_, fun d => ?_, fun b call hb => (h.calls b call hb).grows
    (grows_update hg)⟩
  · by_cases hd : d = c
    · subst hd
      cases (Function.update_self d (some k') s.conn).symm.trans hk
      exact hk'
    · exact h.conn d k ((Function.update_of_ne hd _ _).symm.trans hk)
  · by_cases hd : d = c
    · subst hd
      simp [hc]
    · simp [Function.update_of_ne hd, hother d hd, h.registered d]

theorem Sound.closeAll {s : Server ι κ} (h : s.Sound) : s.closeAll.Sound := by
  have hclosed : ∀ c k', s.closeAll.conn c = some k' →
      ∃ k, s.conn c = some k ∧ k' = if c ∈ s.conns then k.close else k := by
    intro c k' hk'
    obtain ⟨k, hk, rfl⟩ := Option.map_eq_some_iff.mp hk'
    exact ⟨k, hk, rfl⟩
  have hsame : ∀ c k, s.conn c = some k → ∃ k', s.closeAll.conn c = some k'
      ∧ k.Grows k' ∧ k'.role = k.role ∧ k'.running = k.running := by
    intro c k hk
    refine ⟨_, congrArg (Option.map _) hk, ?_⟩
    split
    · exact ⟨⟨id, List.prefix_refl _, id⟩, rfl, rfl⟩
    · exact ⟨.refl k, rfl, rfl⟩
  refine ⟨fun c k' hk' => ?_, fun c => (h.registered c).trans ⟨?_, ?_⟩, fun b call hb =>
    (h.calls b call hb).grows fun c k hk => ?_⟩
  · obtain ⟨k, hk, rfl⟩ := hclosed c k' hk'
    split
    · rename_i hc
      exact (h.conn c k hk).close ((h.mem_iff hk).mp hc).1
    · exact h.conn c k hk
  · rintro ⟨k, hk, hr, hrun⟩
    obtain ⟨k', hk', -, hr', hrun'⟩ := hsame c k hk
    exact ⟨k', hk', hr'.trans hr, hrun'.trans hrun⟩
  · rintro ⟨k', hk', hr, hrun⟩
    obtain ⟨k, hk, -⟩ := hclosed c k' hk'
    obtain ⟨k'', hk'', -, hr', hrun'⟩ := hsame c k hk
    cases hk'.symm.trans hk''
    exact ⟨k, hk, hr'.symm.trans hr, hrun'.symm.trans hrun⟩
  · obtain ⟨k', hk', hg, -⟩ := hsame c k hk
    exact ⟨k', hk', hg⟩

/-- The reader of a connection returns. -/
theorem Sound.finish {s : Server ι κ} (h : s.Sound) {c : ι} {k : Conn} (hk : s.conn c = some k) :
    ((s.setConn c k.finish).untrack c).Sound := by
  refine h.move (h.conn c k hk).finish ?_ ?_ fun d hd => by simp [hd]
  · rintro k' hk'
    cases hk.symm.trans hk'
    exact ⟨id, List.prefix_refl _, id⟩
  · simp [Conn.finish]

/-- A connection changes in what neither its role nor its registration depend on. -/
theorem Sound.setConn {s : Server ι κ} (h : s.Sound) {c : ι} {k k' : Conn}
    (hk : s.conn c = some k) (hk' : k'.Sound) (hg : k.Grows k') (hr : k'.role = k.role)
    (hrun : k'.running = k.running) : (s.setConn c k').Sound := by
  refine h.move hk' ?_ ?_ fun _ _ => Iff.rfl
  · rintro k'' hk''
    cases hk.symm.trans hk''
    exact hg
  · rw [h.mem_iff hk, hr, hrun]

theorem Sound.handle {s s' : Server ι κ} (h : s.Sound) {c : ι} {k : Conn}
    (hk : s.conn c = some k) (hr : k.role = .unread) (hrun : k.running = true)
    {input reply : GoString} (hact : s.handle c k input reply = some s') : s'.Sound := by
  have hnot : c ∉ s.conns := fun hm => by
    rw [(h.mem_iff hk).mp hm |>.1] at hr
    cases hr
  have hans : (s.setConn c (k.answer reply)).Sound := by
    refine h.move ((h.conn c k hk).answer hr reply) ?_ ?_ fun _ _ => Iff.rfl
    · rintro k' hk'
      cases hk.symm.trans hk'
      refine ⟨fun hg => absurd (hr.symm.trans hg) (by decide), List.prefix_refl _, fun hf => ?_⟩
      exact absurd (((h.conn c k hk).unread hr).2.2.2.1.symm.trans hf) (by decide)
    · simp [hnot, Conn.answer, Conn.finish, Conn.close]
  unfold Server.handle at hact
  split at hact
  · cases hact
  · cases hact
    obtain ⟨hwire, haddr, hsent, -⟩ := (h.conn c k hk).unread hr
    refine h.move ⟨(h.conn c k hk).settled, nofun, fun _ => ?_, nofun, (h.conn c k hk).failed⟩
      ?_ ?_ fun d hd => by simp [hd]
    · refine ⟨[], ?_, by simp, fun _ => rfl⟩
      show k.w.sock.wire = _
      simp [hwire, Conn.lead, Conn.lines, haddr, hsent]
    · rintro k' hk'
      cases hk.symm.trans hk'
      exact ⟨fun _ => rfl, List.prefix_refl _, id⟩
    · simp [hrun]
  · cases hact
    exact hans

variable [DecidableEq κ]

/-- A call of `Broadcast` writes to the next of its connections. -/
theorem Sound.write {s : Server ι κ} (h : s.Sound) {b : κ} {env : Envelope} {line : GoString}
    {c : ι} {todo : List ι} {snapshot : Finset ι} {k : Conn}
    (hb : s.cast b = some ⟨env, line, c :: todo, snapshot⟩) (hk : s.conn c = some k) :
    ((s.setConn c (k.put env line)).setCast b (some ⟨env, line, todo, snapshot⟩)).Sound := by
  have hcall := h.calls b _ hb
  have hksound := h.conn c k hk
  have hne := (Conn.isLine_broadcast hcall.line).ne_nil
  have hg := Conn.Grows.put hksound.settled env hne
  obtain ⟨k₀, hk₀, hr, -⟩ := hcall.done c (hcall.todo c List.mem_cons_self)
  cases hk.symm.trans hk₀
  have hput : (s.setConn c (k.put env line)).Sound :=
     h.setConn hk (hksound.put hr hcall.line) hg ((hg.gossip hr).trans hr.symm)
      (k.running_put env line)
  refine hput.setCast fun x hx => ?_
  cases hx
  have hgrown := hcall.grows (grows_update fun k' hk' => by cases hk.symm.trans hk'; exact hg)
  refine ⟨hcall.line, fun d hd => hcall.todo d (List.mem_cons_of_mem _ hd), fun d hd => ?_⟩
  obtain ⟨k', hk', hr', hdone⟩ := hgrown.done d hd
  refine ⟨k', hk', hr', ?_⟩
  by_cases hdc : d = c
  · subst hdc
    cases (Function.update_self d (some (k.put env line)) s.conn).symm.trans hk'
    exact .inr (k.mem_sent_put env line)
  · rcases hdone with hd' | hd'
    · exact .inl ((List.mem_cons.mp hd').resolve_left hdc)
    · exact .inr hd'

/-- **Every step keeps it.** -/
theorem Sound.step {s s' : Server ι κ} (h : s.Sound) {a : Step ι κ} (hact : s.act a = some s') :
    s'.Sound := by
  cases a with
  | accept c =>
      simp only [act] at hact
      split at hact
      · rename_i hg
        cases hact
        refine h.move Conn.sound_accepted (fun k hk => ?_) ?_ fun _ _ => Iff.rfl
        · cases hg.1.symm.trans hk
        · simp [h.notMem_of_none hg.1, Conn.accepted]
      · cases hact
  | request c input reply =>
      simp only [act] at hact
      split at hact
      · rename_i k hk
        split at hact
        · rename_i hg
          exact h.handle hk hg.1 hg.2 hact
        · cases hact
      · cases hact
  | dial c addr =>
      simp only [act] at hact
      split at hact
      · rename_i hg
        cases hact
        refine h.move (Conn.sound_dialed hg.2) (fun k hk => ?_) ?_ fun d hd => by simp [hd]
        · cases hg.1.symm.trans hk
        · simp [Conn.dialed]
      · cases hact
  | broadcast b env order =>
      simp only [act] at hact
      split at hact
      · rename_i line hline
        split at hact
        · rename_i hg
          cases hact
          refine h.setCast fun x hx => ?_
          cases hx
          -- the order is one of the registered connections, all of which speak gossip
          refine ⟨hline, fun c hc => ?_, fun c hc => ?_⟩
          · rw [← hg.2.2, List.mem_toFinset]
            exact hc
          · obtain ⟨k, hk, hr, -⟩ := (h.registered c).mp hc
            refine ⟨k, hk, hr, .inl ?_⟩
            rw [← hg.2.2, List.mem_toFinset] at hc
            exact hc
        · cases hact
      · cases hact
  | write b =>
      simp only [act] at hact
      split at hact
      · rename_i hb
        split at hact
        · rename_i hk
          cases hact
          exact h.write hb hk
        · cases hact
      · cases hact
  | «return» b =>
      simp only [act] at hact
      split at hact
      · cases hact
        exact h.setCast nofun
      · cases hact
  | lose c room =>
      simp only [act] at hact
      split at hact
      · rename_i k hk
        split at hact
        · cases hact
          exact h.setConn hk ((h.conn c k hk).lost _) ⟨id, List.prefix_refl _, id⟩ rfl rfl
        · cases hact
      · cases hact
  | leave c =>
      simp only [act] at hact
      split at hact
      · rename_i k hk
        cases hact
        exact h.setConn hk ((h.conn c k hk).lost k.w.sock.room) ⟨id, List.prefix_refl _, id⟩ rfl rfl
      · cases hact
  | speak c =>
      simp only [act] at hact
      split at hact
      · rename_i k hk
        split at hact
        · cases hact
          split
          · exact h.finish hk
          · exact h
        · cases hact
      · cases hact
  | finish c =>
      simp only [act] at hact
      split at hact
      · rename_i k hk
        split at hact
        · cases hact
          exact h.finish hk
        · cases hact
      · cases hact
  | stop =>
      simp only [act] at hact
      cases hact
      exact ⟨h.closeAll.conn, h.closeAll.registered, h.closeAll.calls⟩

/-- **In every state of every run.** -/
theorem sound_of_reached {ok : Server ι κ → Step ι κ → Prop} {s : Server ι κ}
    (h : Reached act ok start s) : s.Sound :=
  h.invariant sound_start fun _ _ _ hs _ hact => hs.step hact

/-! ## What the far end makes of it -/

end Server

/-- The envelopes `OnGossip` is called with for the lines that have come so far. -/
def heard (input : GoString) : List Envelope := (linesFrom [] input).filterMap Envelope.unmarshal

/-- Line by line, as `handleGossip` has it. -/
theorem heard_eq (input : GoString) :
    heard input = ((handleGossip input).map fun r => r.1.toList ++ heard r.2).getD [] := by
  unfold heard handleGossip
  rw [linesFrom_readString]
  cases readString input with
  | none => rfl
  | some r =>
      cases hu : Envelope.unmarshal r.1 <;> simp [hu]

/-- The far end of a connection: a listener, which reads the first line apart, or a dialer. -/
def Conn.farEnd (k : Conn) (input : GoString) : List Envelope :=
  if k.outboundAddr = [] then heard input
  else
    match readInbound input with
    | .ok .gossip => heard (((readString input).map Prod.snd).getD [])
    | _ => []

theorem hop_eq (e : Envelope) : e.hop = e.broadcast.bind Envelope.unmarshal := by
  unfold Envelope.hop
  cases hb : e.broadcast with
  | none => rfl
  | some line =>
      obtain ⟨t, rfl, ht⟩ := Conn.isLine_broadcast hb
      rw [Option.bind_some, Option.bind_some, handleGossip, readString_line ht []]
      rfl

theorem heard_lines {k : Conn} {tail : GoString} (ht : 0x0A ∉ tail) :
    heard (k.lines.flatten ++ tail) = k.sent.filterMap Envelope.hop := by
  unfold heard
  rw [linesFrom_flatten (fun l hl => Conn.isLine_of_mem_lines hl) ht, Conn.lines,
    List.filterMap_filterMap]
  exact List.filterMap_congr fun e _ => (hop_eq e).symm

theorem heard_mono {s t : GoString} (h : s <+: t) : heard s <+: heard t :=
  (linesFrom_mono [] h).filterMap _

theorem readInbound_greeting (rest : GoString) :
    readInbound (Conn.greeting ++ rest) = .ok .gossip
      ∧ readString (Conn.greeting ++ rest) = some (Conn.greeting, rest) := by
  have hread : readString (Conn.greeting ++ rest) = some (Conn.greeting, rest) :=
    readString_line (show (0x0A : UInt8) ∉ str "GOSSIP" by decide +kernel) rest
  refine ⟨?_, hread⟩
  unfold readInbound
  rw [hread]
  rfl

/-- The far end of a connection with nothing but lines after the greeting, if there is one. -/
theorem farEnd_lead (k : Conn) (rest : GoString) : k.farEnd (k.lead ++ rest) = heard rest := by
  unfold Conn.farEnd Conn.lead
  split
  · rfl
  · obtain ⟨hin, hread⟩ := readInbound_greeting rest
    rw [hin, hread]
    rfl

/-- Before the greeting is complete the far end hears nothing. -/
theorem farEnd_of_prefix_lead {k : Conn} {s : GoString} (h : s <+: k.lead) : k.farEnd s = [] := by
  have hline : IsLine Conn.greeting := ⟨str "GOSSIP", rfl, by decide +kernel⟩
  unfold Conn.lead at h
  unfold Conn.farEnd
  split
  · rename_i haddr
    rw [if_pos haddr] at h
    rw [List.prefix_nil.mp h]
    rfl
  · rename_i haddr
    rw [if_neg haddr] at h
    rcases h.length_le.lt_or_eq with hlt | heq
    · have hnone : readInbound s = .error .eof := by
        unfold readInbound
        rw [readString_of_notMem (hline.notMem_of_cut h hlt)]
      rw [hnone]
    · obtain ⟨hin, hread⟩ := readInbound_greeting []
      rw [h.eq_of_length heq, ← List.append_nil Conn.greeting, hin, hread]
      rfl

theorem farEnd_mono (k : Conn) {s rest : GoString} (h : s <+: k.lead ++ rest) :
    k.farEnd s <+: heard rest := by
  rcases List.prefix_or_prefix_of_prefix h (List.prefix_append k.lead rest) with hs | ⟨u, rfl⟩
  · rw [farEnd_of_prefix_lead hs]
    exact List.nil_prefix
  · rw [farEnd_lead]
    exact heard_mono ((List.prefix_append_right_inj _).mp h)

section Results

variable {ι κ : Type} [DecidableEq ι] [DecidableEq κ]

/--
**A gossip connection is a channel that keeps the order and can only be cut off.**
Whatever calls of `Broadcast`, losses and new connections there have been, the
envelopes the far end has decoded from the bytes that have reached it are the first
of those written to this connection, each as one hop leaves it; when all bytes have
reached it they are all of them.
-/
theorem gossip_arrives_in_order {s : Server ι κ}
    (h : Reached Server.act (fun _ _ => True) Server.start s) {c : ι} {k : Conn}
    (hk : s.conn c = some k) (hr : k.role = .gossip) :
    (∀ n, k.farEnd (k.w.sock.wire.take n) <+: k.sent.filterMap Envelope.hop)
      ∧ k.farEnd k.w.sock.wire = k.sent.filterMap Envelope.hop := by
  obtain ⟨tail, hwire, htail, -⟩ := ((Server.sound_of_reached h).conn c k hk).gossip hr
  have hall : k.farEnd k.w.sock.wire = k.sent.filterMap Envelope.hop := by
    rw [hwire, farEnd_lead, heard_lines htail]
  refine ⟨fun n => ?_, hall⟩
  rw [← hall, hwire, farEnd_lead]
  exact farEnd_mono k (List.take_prefix _ _)

/-- Two announcements to be sent. -/
def sampleFact (name : String) : Envelope :=
  ⟨str (name ++ "/hello"), str name, .addNode, 1, [0x7B, 0x7D], []⟩

/--
A neighbour is dialed and another dials in. The second announcement finds the first
connection about to break, after ten more bytes.
-/
def sampleSteps : List (Step Bool Unit) :=
  [.dial true (str "b:51820"), .accept false, .request false (str "GOSSIP\n") [],
    .broadcast () (sampleFact "a") [true, false], .write (), .write (), .return (),
    .lose true 10, .broadcast () (sampleFact "c") [false, true], .write (), .write ()]

theorem gossip_arrives_in_order_cut : ∃ (s : Server Bool Unit) (k : Conn),
    Reached Server.act (fun _ _ => True) Server.start s ∧ s.conn true = some k
      ∧ k.w.failed = true ∧ k.sent = [sampleFact "a"]
      ∧ k.farEnd k.w.sock.wire = [sampleFact "a"].filterMap Envelope.hop := by
  obtain ⟨s, hs, hP⟩ : ∃ s : Server Bool Unit,
      Reached Server.act (fun _ _ => True) Server.start s ∧ (s.conn true).any (fun k =>
        decide (k.role = .gossip ∧ k.w.failed = true ∧ k.sent = [sampleFact "a"])) = true :=
    exists_reached_of_runActs sampleSteps (by decide +kernel)
  obtain ⟨k, hk, hfacts⟩ := (Option.any_eq_true _ _).mp hP
  obtain ⟨hr, hf, hsent⟩ := of_decide_eq_true hfacts
  refine ⟨s, k, hs, hk, hf, hsent, ?_⟩
  rw [← hsent]
  exact (gossip_arrives_in_order hs hk hr).2

/--
**A call of `Broadcast` that has come to its end has reached every connection** that
was registered when it began: the line is on the wire whole, or a write to that very
connection has failed and it is closed. No connection is missed because of another.
-/
theorem broadcast_reaches_registered {s : Server ι κ}
    (h : Reached Server.act (fun _ _ => True) Server.start s) {b : κ} {call : Cast ι}
    (hb : s.cast b = some call) (hdone : call.todo = []) :
    ∀ c ∈ call.snapshot, ∃ k, s.conn c = some k ∧ k.role = .gossip
      ∧ ((call.env ∈ k.sent ∧ call.line <:+: k.w.sock.wire)
        ∨ (k.w.failed = true ∧ k.isOpen = false)) := by
  have hsound := Server.sound_of_reached h
  have hcall := hsound.calls b call hb
  intro c hc
  obtain ⟨k, hk, hr, hk'⟩ := hcall.done c hc
  have hkind := hsound.conn c k hk
  refine ⟨k, hk, hr, ?_⟩
  rcases hk' with htodo | hsent | hf
  · rw [hdone] at htodo
    cases htodo
  · -- a line that was written is still there
    obtain ⟨tail, hwire, -, -⟩ := hkind.gossip hr
    have hline : call.line ∈ k.lines := List.mem_filterMap.mpr ⟨_, hsent, hcall.line⟩
    obtain ⟨before, after, hlines⟩ := List.append_of_mem hline
    refine .inl ⟨hsent, k.lead ++ before.flatten, after.flatten ++ tail, ?_⟩
    rw [hwire, hlines]
    simp
  · exact .inr ⟨hf, hkind.failed hf⟩

theorem broadcast_reaches_registered_broken : ∃ s : Server Bool Unit,
    Reached Server.act (fun _ _ => True) Server.start s
      ∧ ∃ call, s.cast () = some call ∧ call.todo = [] ∧ call.snapshot = {true, false}
      ∧ ∀ c ∈ call.snapshot, ∃ k, s.conn c = some k ∧ k.role = .gossip
        ∧ ((call.env ∈ k.sent ∧ call.line <:+: k.w.sock.wire)
          ∨ (k.w.failed = true ∧ k.isOpen = false)) := by
  obtain ⟨s, hs, hP⟩ : ∃ s : Server Bool Unit,
      Reached Server.act (fun _ _ => True) Server.start s ∧ (s.cast ()).any (fun call =>
        decide (call.todo = [] ∧ call.snapshot = {true, false})) = true :=
    exists_reached_of_runActs sampleSteps (by decide +kernel)
  obtain ⟨call, hcall, hfacts⟩ := (Option.any_eq_true _ _).mp hP
  obtain ⟨htodo, hsnap⟩ := of_decide_eq_true hfacts
  exact ⟨s, hs, call, hcall, htodo, hsnap, broadcast_reaches_registered hs hcall htodo⟩

/--
**Only gossip is broadcast to.** On a connection that has not asked for gossip there is
never anything but (part of) the one answer it was given, and no call of `Broadcast` is
going to write to it, however calls and new connections overlap.
-/
theorem others_get_their_answer_only {s : Server ι κ}
    (h : Reached Server.act (fun _ _ => True) Server.start s) {c : ι} {k : Conn}
    (hk : s.conn c = some k) (hr : k.role ≠ .gossip) :
    k.w.sock.wire <+: k.reply ∧ ∀ b call, s.cast b = some call → c ∉ call.todo := by
  have hsound := Server.sound_of_reached h
  have hkind := hsound.conn c k hk
  refine ⟨?_, fun b call hb hc => ?_⟩
  · cases hrole : k.role with
    | unread =>
        rw [(hkind.unread hrole).1]
        exact List.nil_prefix
    | gossip => exact absurd hrole hr
    | answered => exact (hkind.answered hrole).1
  · have hcall := hsound.calls b call hb
    obtain ⟨k', hk', hr', -⟩ := hcall.done c (hcall.todo c hc)
    cases hk.symm.trans hk'
    exact hr hr'

/-- A request for an invitation comes in while an announcement goes out. -/
def sampleRequest : List (Step Bool Unit) :=
  [.dial true (str "b:51820"), .accept false, .broadcast () (sampleFact "a") [true],
    .request false (str "INVITE2 GET x\n") (str "ERR malformed GET\n"), .write ()]

theorem others_get_their_answer_only_get : ∃ (s : Server Bool Unit) (k : Conn),
    Reached Server.act (fun _ _ => True) Server.start s ∧ s.conn false = some k
      ∧ k.role = .answered ∧ k.reply = str "ERR malformed GET\n" ∧ k.w.sock.wire = k.reply
      ∧ k.w.sock.wire <+: k.reply ∧ ∀ b call, s.cast b = some call → false ∉ call.todo := by
  obtain ⟨s, hs, hP⟩ : ∃ s : Server Bool Unit,
      Reached Server.act (fun _ _ => True) Server.start s ∧ (s.conn false).any (fun k =>
        decide (k.role = .answered ∧ k.reply = str "ERR malformed GET\n"
          ∧ k.w.sock.wire = k.reply)) = true :=
    exists_reached_of_runActs sampleRequest (by decide +kernel)
  obtain ⟨k, hk, hfacts⟩ := (Option.any_eq_true _ _).mp hP
  obtain ⟨hr, hreply, hwire⟩ := of_decide_eq_true hfacts
  exact ⟨s, k, hs, hk, hr, hreply, hwire,
    others_get_their_answer_only hs hk (by rw [hr]; decide)⟩

end Results

end Gsnet.Transport.Pool
