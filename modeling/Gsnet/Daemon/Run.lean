import Gsnet.Daemon.Invite
import Gsnet.Gossip.Announce

/-!
# A running daemon

`Run` builds the plane from what it loads at start-up and then only ever replaces
`d.loaded`: the plane keeps the name and the signing key it was made with. The
look-up of keys, on the other hand, is a method of the daemon and always sees what
is loaded now.

The operations are the ones that write the outbox or change what is announced.
`load` and `announceLocal` are kept apart: a reload is the one followed by the
other, a redial is the second alone, and other operations may come in between.
-/

namespace Gsnet.Daemon

open Go Config Gossip

/-- `lookupPubKey`: the own key for the own name, otherwise what `hosts/<name>` says. -/
def lookupPubKey (fs : FileSystem) (paths : Paths) (l : Loaded) (name : GoString) :
    Option Ed25519Public :=
  if name = l.nodeName then some l.edPriv.public
  else match parseFile fs (paths.hostFile name) with
    | .error _ => none
    | .ok es =>
      (es.getFirst (str "Ed25519PublicKey")).bind fun v => parseEd25519PublicBase64 (trimSpace v)

/-- The target of `tryDialPeer`, `none` where it gives up before it dials. -/
def dialTarget (fs : FileSystem) (paths : Paths) (l : Loaded) (peerName : GoString) :
    Option GoString :=
  match parseFile fs (paths.hostFile peerName) with
  | .error _ => none
  | .ok es =>
    (es.getFirst (str "Address")).map fun addr =>
      let port := (atoiOf es (str "Port")).getD l.wgListenPort
      addr ++ 0x3A :: formatInt port

section Announced

variable [Ed25519] [Curve25519]

/-- `announceLocal` with the envelopes it originates, in order. -/
def announceLocalLog (p : Plane) (l : Loaded) (ep : Option AddrPort) (clock : Clock) :
    Plane × List Envelope :=
  let r := p.announceHello (localHello l ep) clock.hello
  l.subnets.zipIdx.foldl (fun acc s =>
    let r := acc.1.announceAddSubnet s.1.string (clock.subnet s.2)
    (r.1, acc.2 ++ [r.2])) (r.1, [r.2])

theorem announceLocalLog_fst (p : Plane) (l : Loaded) (ep : Option AddrPort) (clock : Clock) :
    (announceLocalLog p l ep clock).1 = announceLocal p l ep clock := by
  unfold announceLocalLog announceLocal
  generalize p.announceHello (localHello l ep) clock.hello = r
  obtain ⟨q, e⟩ := r
  show (List.foldl _ (q, [e]) l.subnets.zipIdx).1 = List.foldl _ q l.subnets.zipIdx
  generalize [e] = log
  induction l.subnets.zipIdx generalizing q log with
  | nil => rfl
  | cons s subnets ih => exact ih _ _

/-- **What holds of the Hello and of every subnet announced holds of all that goes out.** -/
theorem forall_mem_announceLocalLog {P : Envelope → Prop} {p : Plane} {l : Loaded}
    {ep : Option AddrPort} {clock : Clock}
    (hello : P (p.announce (.hello (localHello l ep)) clock.hello).2)
    (subnet : ∀ (q : Plane) (s : GoString) (ts : Int64), q.nodeName = p.nodeName →
      q.edPriv = p.edPriv → P (q.announce (.addSubnet s) ts).2) :
    ∀ env ∈ (announceLocalLog p l ep clock).2, P env := by
  -- along the subnets the plane keeps its name and its key
  have hfold : ∀ (subnets : List (Subnet × Nat)) (q : Plane) (log : List Envelope),
      q.nodeName = p.nodeName → q.edPriv = p.edPriv → (∀ env ∈ log, P env) →
      ∀ env ∈ (subnets.foldl (fun acc s =>
        let r := acc.1.announceAddSubnet s.1.string (clock.subnet s.2)
        (r.1, acc.2 ++ [r.2])) (q, log)).2, P env := by
    intro subnets
    induction subnets with
    | nil => exact fun q log _ _ hlog => hlog
    | cons s subnets ih =>
        intro q log hname hkey hlog
        refine ih _ _ ((Plane.announce_nodeName q (.addSubnet s.1.string) _).trans hname)
          ((Plane.announce_edPriv q (.addSubnet s.1.string) _).trans hkey) ?_
        intro env henv
        rcases List.mem_append.mp henv with henv | henv
        · exact hlog env henv
        · rw [List.mem_singleton.mp henv]
          exact subnet q s.1.string (clock.subnet s.2) hname hkey
  refine hfold _ _ _ (Plane.announce_nodeName p (.hello (localHello l ep)) _)
    (Plane.announce_edPriv p (.hello (localHello l ep)) _) ?_
  intro env henv
  rw [List.mem_singleton.mp henv]
  exact hello

/-- The Hello is among it. -/
theorem hello_mem_announceLocalLog (p : Plane) (l : Loaded) (ep : Option AddrPort)
    (clock : Clock) :
    (p.announce (.hello (localHello l ep)) clock.hello).2
      ∈ (announceLocalLog p l ep clock).2 := by
  have hfold : ∀ (subnets : List (Subnet × Nat)) (q : Plane) (log : List Envelope) (env : Envelope),
      env ∈ log → env ∈ (subnets.foldl (fun acc s =>
        let r := acc.1.announceAddSubnet s.1.string (clock.subnet s.2)
        (r.1, acc.2 ++ [r.2])) (q, log)).2 := by
    intro subnets
    induction subnets with
    | nil => exact fun q log env henv => henv
    | cons s subnets ih => exact fun q log env henv => ih _ _ env (List.mem_append_left _ henv)
  exact hfold _ _ _ _ (List.mem_singleton.mpr rfl)

end Announced

/-- The state of a daemon as far as it concerns what it announces. -/
structure Process where
  paths : Paths
  fs : FileSystem
  loaded : Loaded
  plane : Plane
  /-- The endpoint discovery has found. -/
  endpoint : Option AddrPort
  /-- What the last `announceLocal` found loaded, and the endpoint it found. -/
  last : Loaded × Option AddrPort

inductive Op where
  /-- Somebody edits the files. -/
  | edit (fs : FileSystem)
  /-- `load`, of a reload. -/
  | load
  /-- Discovery stores a new endpoint. -/
  | discover (ep : AddrPort)
  /-- `announceLocal`, of a reload, after discovery or after a redial. -/
  | announceLocal (clock : Clock)
  /-- `handleInviteJoin`, with what the clock shows at the Hello. -/
  | join (cookie inviteeName hostConfig : GoString) (ts : Int64)
  /-- `Receive`. -/
  | receive (env : Envelope)

namespace Process

variable [Ed25519] [Curve25519] [PKCS8]

/-- The plane with the look-up as it is now. -/
def verifying (s : Process) : Plane :=
  { s.plane with pubKeyFor := some (lookupPubKey s.fs s.paths s.loaded) }

def step (s : Process) : Op → Process
  | .edit fs => { s with fs := fs }
  | .load =>
    match Daemon.load s.fs s.paths with
    | .ok l => { s with loaded := l }
    | .error _ => s
  | .discover ep => { s with endpoint := some ep }
  | .announceLocal clock =>
    { s with
      plane := Daemon.announceLocal s.plane s.loaded s.endpoint clock
      last := (s.loaded, s.endpoint) }
  | .join cookie inviteeName hostConfig ts =>
    let served := handleInviteJoin s.fs s.paths cookie inviteeName hostConfig
    { s with
      fs := served.fs
      plane := served.hello.elim s.plane fun h => (s.plane.announceHello h ts).1 }
  | .receive env => { s with plane := s.verifying.afterReceive env }

def run (s : Process) (ops : List Op) : Process := ops.foldl step s

/-- The daemon `Run` makes of what it has loaded, after its first `announceLocal`. -/
def boot (paths : Paths) (fs : FileSystem) (l : Loaded) (clock : Clock) : Process where
  paths := paths
  fs := fs
  loaded := l
  plane := Daemon.announceLocal
    (newPlane l.nodeName (some l.edPriv) (some (lookupPubKey fs paths l))) l none clock
  endpoint := none
  last := (l, none)

/-- `Run` up to its first `announceLocal`. -/
def start (paths : Paths) (fs : FileSystem) (clock : Clock) : Except LoadError Process :=
  (Daemon.load fs paths).map fun l => boot paths fs l clock

theorem start_of_load {paths : Paths} {fs : FileSystem} {l : Loaded}
    (h : Daemon.load fs paths = .ok l) (clock : Clock) :
    start paths fs clock = .ok (boot paths fs l clock) := by
  rw [start, h]
  rfl

@[simp] theorem run_append_singleton (s : Process) (ops : List Op) (o : Op) :
    s.run (ops ++ [o]) = (s.run ops).step o := by
  simp [run]

end Process

/-! ## What stays -/

section Frames

variable [Ed25519] [Curve25519] [PKCS8]

omit [PKCS8] in
/-- `announceLocal` keeps the name and the key of the plane. -/
theorem announceLocal_frame (p : Plane) (l : Loaded) (ep : Option AddrPort) (clock : Clock) :
    (announceLocal p l ep clock).nodeName = p.nodeName
      ∧ (announceLocal p l ep clock).edPriv = p.edPriv := by
  have hfold : ∀ (subnets : List (Subnet × Nat)) (q : Plane),
      (subnets.foldl (fun p s => (p.announceAddSubnet s.1.string (clock.subnet s.2)).1) q).nodeName
          = q.nodeName
        ∧ (subnets.foldl (fun p s => (p.announceAddSubnet s.1.string (clock.subnet s.2)).1)
          q).edPriv
          = q.edPriv := by
    intro subnets
    induction subnets with
    | nil => exact fun q => ⟨rfl, rfl⟩
    | cons s subnets ih =>
        intro q
        obtain ⟨h1, h2⟩ := ih (q.announceAddSubnet s.1.string (clock.subnet s.2)).1
        exact ⟨h1.trans (Plane.announce_nodeName q (.addSubnet s.1.string) _),
          h2.trans (Plane.announce_edPriv q (.addSubnet s.1.string) _)⟩
  obtain ⟨h1, h2⟩ := hfold l.subnets.zipIdx (p.announceHello (localHello l ep) clock.hello).1
  exact ⟨h1.trans (Plane.announce_nodeName p (.hello (localHello l ep)) _),
    h2.trans (Plane.announce_edPriv p (.hello (localHello l ep)) _)⟩

/-- **No operation changes the name or the key of the plane.** -/
theorem step_identity (s : Process) (o : Op) :
    (s.step o).plane.nodeName = s.plane.nodeName ∧ (s.step o).plane.edPriv = s.plane.edPriv := by
  cases o with
  | edit fs => exact ⟨rfl, rfl⟩
  | load =>
      simp only [Process.step]
      split <;> exact ⟨rfl, rfl⟩
  | discover ep => exact ⟨rfl, rfl⟩
  | announceLocal clock => exact announceLocal_frame _ _ _ _
  | join cookie name host ts =>
      simp only [Process.step]
      cases (handleInviteJoin s.fs s.paths cookie name host).hello with
      | none => exact ⟨rfl, rfl⟩
      | some h =>
          exact ⟨Plane.announce_nodeName s.plane (.hello h) ts,
            Plane.announce_edPriv s.plane (.hello h) ts⟩
  | receive env =>
      obtain ⟨h1, h2, -⟩ := Plane.afterReceive_frame s.verifying env
      exact ⟨h1, h2⟩

theorem run_identity (s : Process) (ops : List Op) :
    (s.run ops).plane.nodeName = s.plane.nodeName
      ∧ (s.run ops).plane.edPriv = s.plane.edPriv := by
  induction ops using List.reverseRecOn with
  | nil => exact ⟨rfl, rfl⟩
  | append_singleton ops o ih =>
      rw [Process.run_append_singleton]
      obtain ⟨h1, h2⟩ := step_identity (s.run ops) o
      exact ⟨h1.trans ih.1, h2.trans ih.2⟩

/-- A daemon starts from what it loads. -/
theorem start_eq_ok {paths : Paths} {fs : FileSystem} {clock : Clock} {s : Process} :
    Process.start paths fs clock = .ok s
      ↔ load fs paths = .ok s.loaded ∧ s = Process.boot paths fs s.loaded clock := by
  unfold Process.start
  cases load fs paths with
  | error e => simp [Except.map]
  | ok l =>
      constructor
      · intro h
        cases h
        exact ⟨rfl, rfl⟩
      · rintro ⟨hl, hboot⟩
        cases hl
        exact congrArg Except.ok hboot.symm

/-- Its plane has the name and the key that are loaded. -/
theorem start_spec {paths : Paths} {fs : FileSystem} {clock : Clock} {s : Process}
    (h : Process.start paths fs clock = .ok s) :
    s = Process.boot paths fs s.loaded clock ∧ s.plane.nodeName = s.loaded.nodeName
      ∧ s.plane.edPriv = some s.loaded.edPriv := by
  obtain ⟨-, hboot⟩ := start_eq_ok.mp h
  obtain ⟨h1, h2⟩ := announceLocal_frame (newPlane s.loaded.nodeName (some s.loaded.edPriv)
    (some (lookupPubKey fs paths s.loaded))) s.loaded none clock
  refine ⟨hboot, ?_, ?_⟩
  · rw [hboot]
    exact h1
  · rw [hboot]
    exact h2

end Frames

end Gsnet.Daemon
