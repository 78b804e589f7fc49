import Gsnet.Dataplane.Reconcile
import Gsnet.Lib.Fallible
import Gsnet.Proof.SettledPeers

/-!
# States that the reconciler refuses

`Reconcile` asks for the name of the WireGuard interface before it does anything, and
for what the VXLAN device needs after the WireGuard interface is set up and its peers
are configured. So a state that lacks one of the latter is refused, but not before
its WireGuard part has reached the kernel. The host is as it was only where that part
had nothing to do.
-/

namespace Gsnet.Dataplane

open Go Lib

/-! ## What a state lacks, and what a host has -/

/-- The state has what its mode needs beside WireGuard. -/
def Complete (s : State) : Prop :=
  s.mode = .router
    ∨ s.vxlanInterface ≠ [] ∧ s.localInnerAddr.isSome = true ∧ s.localUnderlayAddr.isSome = true

/-- The link is set up as the state asks for. -/
structure Link.SetUp (s : State) (link : Link) : Prop where
  mtu : 0 < s.mtu → link.mtu = s.mtu
  addr : ∀ a, s.localUnderlayAddr = some a → prefixToIPNet a ∈ link.addrs
  up : link.up = true

/--
The WireGuard part finds nothing to do, or nothing it could do: there is a link of
that name, and if it is a WireGuard device then it is as the state asks for.
-/
def WGSettled (s : State) (h : Host) : Prop :=
  ∃ link, h.get? s.wgInterface = some link
    ∧ ∀ dev, link.kind = .wireguard dev → link.SetUp s ∧ Settled s dev

/-! ## Requests -/

section Requests

variable {K : Kernel} {h h' : Host} {name : GoString}

theorem request_ok {r : Request} :
    request K r h = .ok () h' ↔ K.refuses h r = false ∧ h.apply K r = some h' := by
  unfold request
  cases hr : K.refuses h r with
  | true => simp
  | false =>
      cases ha : h.apply K r with
      | none => simp
      | some h₁ => simp

theorem linkByName_ok {l : Option Link} :
    linkByName K name h = .ok l h'
      ↔ K.refuses h (.linkByName name) = false ∧ h' = h ∧ l = h.get? name := by
  unfold linkByName
  rw [estate_bind_ok]
  constructor
  · rintro ⟨_, h₁, hreq, hget⟩
    obtain ⟨hr, ha⟩ := request_ok.mp hreq
    cases ha
    cases hget
    exact ⟨hr, rfl, rfl⟩
  · rintro ⟨hr, rfl, rfl⟩
    exact ⟨(), h', request_ok.mpr ⟨hr, rfl⟩, rfl⟩

theorem foundLink_ok {link : Link} :
    foundLink K name h = .ok link h'
      ↔ K.refuses h (.linkByName name) = false ∧ h' = h ∧ h.get? name = some link := by
  unfold foundLink
  rw [estate_bind_ok]
  constructor
  · rintro ⟨l, h₁, hfind, hmatch⟩
    obtain ⟨hr, rfl, rfl⟩ := linkByName_ok.mp hfind
    cases hl : h₁.get? name with
    | none => rw [hl] at hmatch; cases hmatch
    | some l =>
        rw [hl] at hmatch
        cases hmatch
        exact ⟨hr, rfl, rfl⟩
  · rintro ⟨hr, rfl, hl⟩
    exact ⟨some link, h', linkByName_ok.mpr ⟨hr, rfl, hl.symm⟩, rfl⟩

end Requests

/-! ## Errors of the kernel -/

/-- Whatever error comes out, it is not the state that is refused. -/
def OnlyKernel {α : Type} (x : Requests α) : Prop :=
  ∀ h e h', x h = .error e h' → e.isValidation = false

namespace OnlyKernel

variable {α β : Type} {K : Kernel}

theorem pure (a : α) : OnlyKernel (Pure.pure a) := by
  intro h e h' hrun
  cases hrun

theorem bind {x : Requests α} {f : α → Requests β} (hx : OnlyKernel x)
    (hf : ∀ a, OnlyKernel (f a)) : OnlyKernel (x >>= f) := by
  intro h e h' hrun
  rcases estate_bind_error.mp hrun with hrun | ⟨a, h₁, -, hrun⟩
  · exact hx h e h' hrun
  · exact hf a h₁ e h' hrun

theorem request (r : Request) : OnlyKernel (request K r) := by
  intro h e h' hrun
  unfold Dataplane.request at hrun
  split at hrun
  · cases hrun
    rfl
  · split at hrun
    · cases hrun
    · cases hrun
      rfl

theorem linkByName (name : GoString) : OnlyKernel (linkByName K name) :=
  (request _).bind fun _ h e h' hrun => by cases hrun

theorem foundLink (name : GoString) : OnlyKernel (foundLink K name) := by
  refine (linkByName name).bind fun l => ?_
  cases l with
  | some link => exact pure link
  | none =>
      intro h e h' hrun
      cases hrun
      rfl

theorem forM_rows (f : FdbKey → Request) (ks : List FdbKey) :
    OnlyKernel (forIn ks PUnit.unit fun k _ => do
      Dataplane.request K (f k)
      Pure.pure (ForInStep.yield PUnit.unit)) := by
  induction ks with
  | nil => exact pure _
  | cons k ks ih =>
      rw [List.forIn_cons]
      refine ((request _).bind fun _ => pure _).bind fun r => ?_
      cases r with
      | done _ => exact pure _
      | yield _ => exact ih

theorem ensureMTU (name : GoString) (link : Link) (want : Option Int64) :
    OnlyKernel (ensureMTU K name link want) := by
  unfold Dataplane.ensureMTU
  split
  · split
    · exact request _
    · exact pure _
  · exact pure _

theorem ensureAddr (name : GoString) (addr : Option Prefix) :
    OnlyKernel (ensureAddr K name addr) := by
  cases addr with
  | some a => exact request _
  | none => exact pure _

theorem setUpWG (s : State) (link : Link) : OnlyKernel (setUpWG K s link) :=
  (ensureMTU _ _ _).bind fun _ => (ensureAddr _ _).bind fun _ => request _

theorem ensureWGInterface (s : State) : OnlyKernel (ensureWGInterface K s) := by
  refine (linkByName _).bind fun l => ?_
  cases l with
  | some link => exact setUpWG s link
  | none => exact (request _).bind fun _ => (foundLink _).bind (setUpWG s)

theorem requestWGPeers (s : State) : OnlyKernel (requestWGPeers K s) := by
  intro h e h' hrun
  exact request _ h e h' hrun

theorem keepVXLAN (name : GoString) (wantSrc : IP) : OnlyKernel (keepVXLAN K name wantSrc) := by
  refine (linkByName _).bind fun l => ?_
  cases l with
  | none => exact pure _
  | some link =>
      dsimp only
      split
      · split
        · exact pure _
        · exact (request _).bind fun _ => pure _
      · exact pure _

theorem ensureMAC (name : GoString) (link : Link) (mac : HardwareAddr) :
    OnlyKernel (ensureMAC K name link mac) := by
  unfold Dataplane.ensureMAC
  split
  · exact request _
  · exact pure _

theorem setUpVXLAN [Sha256] [Curve25519] (s : State) (inner : Prefix) (link : Link) :
    OnlyKernel (setUpVXLAN K s inner link) :=
  (ensureMAC _ _ _).bind fun _ => (ensureMTU _ _ _).bind fun _ =>
    (ensureAddr _ _).bind fun _ => request _

theorem ensureVXLAN [Sha256] [Curve25519] (s : State) (inner underlay : Prefix) :
    OnlyKernel (ensureVXLAN K s inner underlay) := by
  refine (foundLink _).bind fun _ => (keepVXLAN _ _).bind fun l => ?_
  cases l with
  | some link => exact setUpVXLAN s inner link
  | none => exact (request _).bind fun _ => (foundLink _).bind (setUpVXLAN s inner)

theorem requestFDB [Sha256] (s : State) : OnlyKernel (requestFDB K s) := by
  refine (foundLink _).bind fun link => (request _).bind fun _ => ?_
  exact (forM_rows _ _).bind fun _ => (forM_rows _ _).bind fun _ => pure _

end OnlyKernel

/-! ## The WireGuard part -/

/-- A WireGuard link that has just been added. -/
def newWG (K : Kernel) (s : State) : Link :=
  ⟨.wireguard .new, s.wantMTU.getD (K.defaultMTU s.wgInterface), [], ∅, false⟩

/-- The link once it is set up. -/
def Link.upFor (s : State) (link : Link) : Link :=
  { link with
    mtu := s.wantMTU.getD link.mtu
    addrs := s.localUnderlayAddr.elim link.addrs fun a => insert (prefixToIPNet a) link.addrs
    up := true }

section WireGuard

variable {K : Kernel} {s : State} {h h' : Host} {name : GoString} {link : Link}

theorem modify_eq {f : Link → Option Link} (hlink : h.get? name = some link) :
    h.modify name f = (f link).map (h.set name) := by
  rw [Host.modify, hlink, Option.bind_some]

theorem ensureMTU_ok {want : Option Int64} (hlink : h.get? name = some link)
    (hrun : ensureMTU K name link want h = .ok () h') :
    h' = h.set name { link with mtu := want.getD link.mtu } := by
  have hsame : h.set name link = h := GoMap.set_eq_self_iff.mpr hlink
  unfold ensureMTU at hrun
  cases want with
  | none =>
      cases hrun
      exact hsame.symm
  | some mtu =>
      dsimp only at hrun
      split at hrun
      · obtain ⟨-, happly⟩ := request_ok.mp hrun
        rw [Host.apply, modify_eq hlink] at happly
        exact (Option.some.inj happly).symm
      · rename_i heq
        cases hrun
        rw [← not_not.mp heq]
        exact hsame.symm

theorem ensureAddr_ok {addr : Option Prefix} (hlink : h.get? name = some link)
    (hrun : ensureAddr K name addr h = .ok () h') :
    h' = h.set name { link with
      addrs := addr.elim link.addrs fun a => insert (prefixToIPNet a) link.addrs } := by
  unfold ensureAddr at hrun
  cases addr with
  | none =>
      cases hrun
      exact (GoMap.set_eq_self_iff.mpr hlink).symm
  | some a =>
      obtain ⟨-, happly⟩ := request_ok.mp hrun
      rw [Host.apply, modify_eq hlink] at happly
      exact (Option.some.inj happly).symm

theorem setUpWG_ok (hlink : h.get? s.wgInterface = some link)
    (hrun : setUpWG K s link h = .ok () h') : h' = h.set s.wgInterface (link.upFor s) := by
  obtain ⟨_, h₁, hmtu, hrest⟩ := estate_bind_ok.mp hrun
  obtain ⟨_, h₂, haddr, hup⟩ := estate_bind_ok.mp hrest
  have h₁eq := ensureMTU_ok hlink hmtu
  have hlink₁ : h₁.get? s.wgInterface = some { link with mtu := s.wantMTU.getD link.mtu } := by
    rw [h₁eq, GoMap.get?_set_self]
  have h₂eq := ensureAddr_ok hlink₁ haddr
  obtain ⟨-, happly⟩ := request_ok.mp hup
  have hlink₂ : h₂.get? s.wgInterface = some { link with
      mtu := s.wantMTU.getD link.mtu
      addrs := s.localUnderlayAddr.elim link.addrs
        fun a => insert (prefixToIPNet a) link.addrs } := by
    rw [h₂eq, GoMap.get?_set_self]
  rw [Host.apply, modify_eq hlink₂, h₂eq, h₁eq] at happly
  rw [← Option.some.inj happly, GoMap.set_set, GoMap.set_set]
  rfl

/-- **The interface after `ensureWGInterface`.** -/
theorem ensureWGInterface_ok (hrun : ensureWGInterface K s h = .ok () h') :
    h' = h.set s.wgInterface (((h.get? s.wgInterface).getD (newWG K s)).upFor s) := by
  obtain ⟨l, h₁, hfind, hmatch⟩ := estate_bind_ok.mp hrun
  obtain ⟨-, rfl, rfl⟩ := linkByName_ok.mp hfind
  cases hl : h₁.get? s.wgInterface with
  | some link =>
      rw [hl] at hmatch
      exact setUpWG_ok hl hmatch
  | none =>
      rw [hl] at hmatch
      obtain ⟨_, h₂, hadd, hrest⟩ := estate_bind_ok.mp hmatch
      obtain ⟨link, h₃, hfound, hsetup⟩ := estate_bind_ok.mp hrest
      obtain ⟨-, rfl, hlink⟩ := foundLink_ok.mp hfound
      obtain ⟨-, happly⟩ := request_ok.mp hadd
      rw [Host.apply, hl] at happly
      have h₃eq : h₃ = h₁.set s.wgInterface (newWG K s) := (Option.some.inj happly).symm
      rw [setUpWG_ok hlink hsetup]
      rw [h₃eq, GoMap.get?_set_self] at hlink
      rw [← Option.some.inj hlink, h₃eq, GoMap.set_set, Option.getD_none]

/-- **The interface after `configureWGPeers`.** -/
theorem requestWGPeers_ok (hlink : h.get? s.wgInterface = some link)
    (hrun : requestWGPeers K s h = .ok () h') :
    ∃ dev existing, link.kind = .wireguard dev ∧ (∀ k ∈ existing.getD [], dev.hasPeer k = true)
      ∧ h' = h.set s.wgInterface
        { link with kind := .wireguard (dev.configure (configureWGPeers s existing)) } := by
  obtain ⟨-, happly⟩ := request_ok.mp hrun
  rw [Host.apply, modify_eq hlink] at happly
  unfold Link.configureDevice at happly
  cases hkind : link.kind with
  | wireguard dev =>
      rw [hkind] at happly
      refine ⟨dev, existingPeers K s.wgInterface h, rfl, ?_, (Option.some.inj happly).symm⟩
      intro k hk
      unfold existingPeers at hk
      rw [hlink, Option.map_some, hkind] at hk
      split at hk
      · cases hk
      · have hmem : k ∈ (K.peers dev : Multiset WGKey) := hk
        rw [K.peers_eq, GoMap.mem_keys] at hmem
        exact Option.isSome_iff_ne_none.mpr hmem
  | vxlan attrs fdb => rw [hkind] at happly; cases happly
  | other => rw [hkind] at happly; cases happly

/-! ## A kernel that refuses nothing -/

/-- Every request that makes sense is accepted. -/
def Kernel.Willing (K : Kernel) : Prop := ∀ h r, K.refuses h r = false

theorem ensureMTU_runs (hK : K.Willing) (hlink : h.get? name = some link) (want : Option Int64) :
    ∃ h', ensureMTU K name link want h = .ok () h' := by
  unfold ensureMTU
  cases want with
  | none => exact ⟨h, rfl⟩
  | some mtu =>
      dsimp only
      split
      · exact ⟨_, request_ok.mpr ⟨hK _ _, modify_eq hlink⟩⟩
      · exact ⟨h, rfl⟩

theorem ensureAddr_runs (hK : K.Willing) (hlink : h.get? name = some link)
    (addr : Option Prefix) : ∃ h', ensureAddr K name addr h = .ok () h' := by
  cases addr with
  | none => exact ⟨h, rfl⟩
  | some a => exact ⟨_, request_ok.mpr ⟨hK _ _, modify_eq hlink⟩⟩

theorem setUpWG_runs (hK : K.Willing) (hlink : h.get? s.wgInterface = some link) :
    ∃ h', setUpWG K s link h = .ok () h' := by
  obtain ⟨h₁, hmtu⟩ := ensureMTU_runs hK hlink s.wantMTU
  have hlink₁ : h₁.get? s.wgInterface = some { link with mtu := s.wantMTU.getD link.mtu } := by
    rw [ensureMTU_ok hlink hmtu, GoMap.get?_set_self]
  obtain ⟨h₂, haddr⟩ := ensureAddr_runs hK hlink₁ s.localUnderlayAddr
  have hlink₂ : ∃ link₂, h₂.get? s.wgInterface = some link₂ :=
    ⟨_, by rw [ensureAddr_ok hlink₁ haddr, GoMap.get?_set_self]⟩
  obtain ⟨link₂, hlink₂⟩ := hlink₂
  exact ⟨_, estate_bind_ok.mpr ⟨(), h₁, hmtu, estate_bind_ok.mpr ⟨(), h₂, haddr,
    request_ok.mpr ⟨hK _ _, modify_eq hlink₂⟩⟩⟩⟩

theorem ensureWGInterface_runs (hK : K.Willing) (s : State) (h : Host) :
    ∃ h', ensureWGInterface K s h = .ok () h' := by
  cases hl : h.get? s.wgInterface with
  | some link =>
      obtain ⟨h', hsetup⟩ := setUpWG_runs hK hl
      exact ⟨h', estate_bind_ok.mpr
        ⟨some link, h, linkByName_ok.mpr ⟨hK _ _, rfl, hl.symm⟩, hsetup⟩⟩
  | none =>
      have hadded : (h.set s.wgInterface (newWG K s)).get? s.wgInterface = some (newWG K s) :=
        GoMap.get?_set_self _ _ _
      obtain ⟨h', hsetup⟩ := setUpWG_runs hK hadded
      have happly : h.apply K (.linkAddWireGuard s.wgInterface s.wantMTU)
          = some (h.set s.wgInterface (newWG K s)) := by
        rw [Host.apply, hl]
        rfl
      exact ⟨h', estate_bind_ok.mpr ⟨none, h, linkByName_ok.mpr ⟨hK _ _, rfl, hl.symm⟩,
        estate_bind_ok.mpr ⟨(), _, request_ok.mpr ⟨hK _ _, happly⟩,
          estate_bind_ok.mpr ⟨_, _, foundLink_ok.mpr ⟨hK _ _, rfl, hadded⟩, hsetup⟩⟩⟩⟩

theorem requestWGPeers_runs (hK : K.Willing) {dev : Device}
    (hlink : h.get? s.wgInterface = some link) (hkind : link.kind = .wireguard dev) :
    requestWGPeers K s h = .ok () (h.set s.wgInterface { link with
      kind := .wireguard (dev.configure (configureWGPeers s (some (K.peers dev)))) }) := by
  have hexisting : existingPeers K s.wgInterface h = some (K.peers dev) := by
    rw [existingPeers, hK, hlink, Option.map_some, hkind]
    rfl
  refine request_ok.mpr ⟨hK _ _, ?_⟩
  show h.modify s.wgInterface (·.configureDevice _) = _
  rw [modify_eq hlink, Link.configureDevice, hkind, hexisting]
  rfl

end WireGuard

/-! ## The whole call -/

section Reconcile

variable [Sha256] [Curve25519] {K : Kernel} {s : State} {h h' : Host}

/-- Beside WireGuard, a state is refused before anything is done. -/
theorem reconcileVXLAN_refused :
    (∃ e, reconcileVXLAN K s h = .error e h' ∧ e.isValidation = true)
      ↔ h' = h ∧ ¬ (s.vxlanInterface ≠ [] ∧ s.localInnerAddr.isSome = true
        ∧ s.localUnderlayAddr.isSome = true) := by
  unfold reconcileVXLAN
  by_cases hvx : s.vxlanInterface = []
  · rw [if_pos hvx]
    constructor
    · rintro ⟨e, hrun, -⟩
      cases hrun
      exact ⟨rfl, fun hc => hc.1 hvx⟩
    · rintro ⟨rfl, -⟩
      exact ⟨_, rfl, rfl⟩
  · rw [if_neg hvx]
    cases hinner : s.localInnerAddr with
    | none =>
        constructor
        · rintro ⟨e, hrun, -⟩
          cases hrun
          exact ⟨rfl, fun hc => by cases hc.2.1⟩
        · rintro ⟨rfl, -⟩
          exact ⟨_, rfl, rfl⟩
    | some inner =>
        cases hunderlay : s.localUnderlayAddr with
        | none =>
            constructor
            · rintro ⟨e, hrun, -⟩
              cases hrun
              exact ⟨rfl, fun hc => by cases hc.2.2⟩
            · rintro ⟨rfl, -⟩
              exact ⟨_, rfl, rfl⟩
        | some underlay =>
            have honly : OnlyKernel (do ensureVXLAN K s inner underlay; requestFDB K s) :=
              (OnlyKernel.ensureVXLAN s inner underlay).bind fun _ => .requestFDB s
            constructor
            · rintro ⟨e, hrun, he⟩
              rw [honly h e h' hrun] at he
              cases he
            · rintro ⟨-, hnot⟩
              exact absurd ⟨hvx, rfl, rfl⟩ hnot

/-- **When a state is refused**, and what has happened by then. -/
theorem reconcile_refused (hwg : s.wgInterface ≠ []) :
    (∃ e, reconcile K s h = .error e h' ∧ e.isValidation = true)
      ↔ ¬ Complete s ∧ ∃ h₁, ensureWGInterface K s h = .ok () h₁
        ∧ requestWGPeers K s h₁ = .ok () h' := by
  unfold reconcile Complete
  rw [if_neg hwg]
  constructor
  · rintro ⟨e, hrun, he⟩
    -- an error of the first two calls is one of the kernel
    rcases estate_bind_error.mp hrun with hrun | ⟨_, h₁, hwgok, hrun⟩
    · rw [OnlyKernel.ensureWGInterface s h e h' hrun] at he
      cases he
    rcases estate_bind_error.mp hrun with hrun | ⟨_, h₂, hpeers, hrun⟩
    · rw [OnlyKernel.requestWGPeers s h₁ e h' hrun] at he
      cases he
    by_cases hmode : s.mode = .router
    · rw [if_neg (not_not.mpr hmode)] at hrun
      cases hrun
    · rw [if_pos hmode] at hrun
      obtain ⟨rfl, hlacks⟩ := reconcileVXLAN_refused.mp ⟨e, hrun, he⟩
      exact ⟨not_or.mpr ⟨hmode, hlacks⟩, h₁, hwgok, hpeers⟩
  · rintro ⟨hnot, h₁, hwgok, hpeers⟩
    obtain ⟨hmode, hlacks⟩ := not_or.mp hnot
    obtain ⟨e, hrun, he⟩ := reconcileVXLAN_refused.mpr ⟨rfl, hlacks⟩
    refine ⟨e, estate_bind_error.mpr (.inr ⟨(), h₁, hwgok,
      estate_bind_error.mpr (.inr ⟨(), h', hpeers, ?_⟩)⟩), he⟩
    rw [if_pos hmode]
    exact hrun

end Reconcile

/-! ## Hosts that are left alone -/

section Untouched

variable {K : Kernel} {s : State} {h h' : Host}

theorem Link.SetUp.upFor {link : Link} (hset : link.SetUp s) : link.upFor s = link := by
  have hmtu : s.wantMTU.getD link.mtu = link.mtu := by
    unfold State.wantMTU
    split
    · rename_i hpos
      exact (hset.mtu hpos).symm
    · rfl
  have haddrs : s.localUnderlayAddr.elim link.addrs
      (fun a => insert (prefixToIPNet a) link.addrs) = link.addrs := by
    cases ha : s.localUnderlayAddr with
    | none => rfl
    | some a => exact Finset.insert_eq_self.mpr (hset.addr a ha)
  unfold Link.upFor
  rw [hmtu, haddrs, ← hset.up]

theorem Link.setUp_of_upFor {link : Link} (hup : (link.upFor s).mtu = link.mtu
    ∧ (link.upFor s).addrs = link.addrs ∧ (link.upFor s).up = link.up) : link.SetUp s where
  mtu := by
    intro hpos
    have hmtu := hup.1
    rw [Link.upFor, State.wantMTU, if_pos hpos] at hmtu
    exact hmtu.symm
  addr := by
    intro a ha
    have haddrs := hup.2.1
    rw [Link.upFor, ha] at haddrs
    exact Finset.insert_eq_self.mp haddrs
  up := hup.2.2.symm

/-- A host whose WireGuard part is settled is left alone by that part. -/
theorem WGSettled.untouched (hset : WGSettled s h) {h₁ : Host}
    (hwg : ensureWGInterface K s h = .ok () h₁) (hpeers : requestWGPeers K s h₁ = .ok () h') :
    h' = h := by
  obtain ⟨link, hlink, hsettled⟩ := hset
  have h₁eq := ensureWGInterface_ok hwg
  rw [hlink, Option.getD_some] at h₁eq
  have hlink₁ : h₁.get? s.wgInterface = some (link.upFor s) := by
    rw [h₁eq, GoMap.get?_set_self]
  obtain ⟨dev, existing, hkind, hexisting, h₂eq⟩ := requestWGPeers_ok hlink₁ hpeers
  obtain ⟨hup, hdev⟩ := hsettled dev hkind
  rw [hup.upFor] at h₁eq hkind h₂eq
  have hsame : h.set s.wgInterface link = h := GoMap.set_eq_self_iff.mpr hlink
  rw [h₂eq, hdev.configure hexisting, ← hkind, h₁eq, hsame]
  exact hsame

/-- Only such a host is: a kernel that refuses nothing makes any other one different. -/
theorem wgSettled_of_untouched (hK : K.Willing) (hsame : ∀ h₁ h₂,
      ensureWGInterface K s h = .ok () h₁ → requestWGPeers K s h₁ = .ok () h₂ → h₂ = h) :
    WGSettled s h := by
  obtain ⟨h₁, hwg⟩ := ensureWGInterface_runs hK s h
  have h₁eq := ensureWGInterface_ok hwg
  have hlink₁ : h₁.get? s.wgInterface
      = some (((h.get? s.wgInterface).getD (newWG K s)).upFor s) := by
    rw [h₁eq, GoMap.get?_set_self]
  -- what the host has under the name once the peers are configured
  have hafter : ∀ dev, (((h.get? s.wgInterface).getD (newWG K s)).upFor s).kind = .wireguard dev →
      h.get? s.wgInterface = some { ((h.get? s.wgInterface).getD (newWG K s)).upFor s with
        kind := .wireguard (dev.configure (configureWGPeers s (some (K.peers dev)))) } := by
    intro dev hkind
    have hrun := requestWGPeers_runs hK hlink₁ hkind
    calc h.get? s.wgInterface
        = (h₁.set s.wgInterface _).get? s.wgInterface :=
          congrArg (GoMap.get? · s.wgInterface) (hsame h₁ _ hwg hrun).symm
      _ = _ := GoMap.get?_set_self _ _ _
  cases hlink : h.get? s.wgInterface with
  | none =>
      rw [hlink] at hafter
      exact absurd (hafter .new rfl) (by simp)
  | some link =>
      rw [hlink, Option.getD_some] at hafter
      refine ⟨link, hlink, fun dev hkind => ?_⟩
      have heq := Option.some.inj (hafter dev hkind)
      have hdev := congrArg Link.kind heq
      rw [hkind] at hdev
      refine ⟨Link.setUp_of_upFor ⟨(congrArg Link.mtu heq).symm, (congrArg Link.addrs heq).symm,
        (congrArg Link.up heq).symm⟩, settled_of_configure (K.peers_eq dev) ?_⟩
      exact (LinkKind.wireguard.inj hdev).symm

/-- Every request is accepted, and lists come in some order. -/
noncomputable def willing : Kernel where
  refuses _ _ := false
  defaultMTU _ := 1420
  peers d := d.peers.keys.toList
  peers_eq _ := Multiset.coe_toList _
  rows ks := ks.toList
  rows_eq ks := Finset.coe_toList ks

/--
**A refused state leaves the host as it was** if the WireGuard interface is what it
lacks, or if the WireGuard part of the host is settled; whatever the kernel, and only then.
-/
theorem rejected_untouched_iff [Sha256] [Curve25519] (s : State) (h : Host) :
    (∀ K e h', reconcile K s h = .error e h' → e.isValidation = true → h' = h)
      ↔ s.wgInterface = [] ∨ Complete s ∨ WGSettled s h := by
  by_cases hwg : s.wgInterface = []
  · refine iff_of_true ?_ (.inl hwg)
    intro K e h' hrun he
    unfold reconcile at hrun
    rw [if_pos hwg] at hrun
    cases hrun
    rfl
  rw [or_iff_right hwg]
  constructor
  · intro hsame
    refine or_iff_not_imp_left.mpr fun hnot => ?_
    refine wgSettled_of_untouched (K := willing) (fun _ _ => rfl) fun h₁ h₂ hwgok hpeers => ?_
    obtain ⟨e, hrun, he⟩ := (reconcile_refused hwg).mpr ⟨hnot, h₁, hwgok, hpeers⟩
    exact hsame willing e h₂ hrun he
  · intro hor K e h' hrun he
    obtain ⟨hnot, h₁, hwgok, hpeers⟩ := (reconcile_refused hwg).mp ⟨e, hrun, he⟩
    rcases hor with hcomplete | hset
    · exact absurd hcomplete hnot
    · exact hset.untouched hwgok hpeers

end Untouched

section Sample

attribute [local instance] clearSha256 clearCurve25519

/-- A switch with one peer and no address of its own. -/
def bareSwitch : State :=
  { sampleState [samplePeer "bob" 2 [sampleNet 0]] with mode := .switch }

/-- The WireGuard device that the switch asks for. -/
def bareDevice : Device where
  peers := GoMap.empty.set (sampleKey 2) ⟨none, 25, 0⟩
  owner n := if n = prefixToIPNet (sampleNet 0) then some (sampleKey 2) else none
  owner_mem := by
    intro n k h
    split at h
    · rw [← Option.some.inj h]; decide
    · cases h

def settledHost : Host := GoMap.empty.set (str "wg0") ⟨.wireguard bareDevice, 1420, [], ∅, true⟩

theorem bareDevice_session {k : WGKey} {v : Session} (h : bareDevice.peers.get? k = some v) :
    k = sampleKey 2 ∧ v = ⟨none, 25, 0⟩ := by
  rw [bareDevice, GoMap.get?_set] at h
  split at h
  · rename_i hk
    exact ⟨hk, (Option.some.inj h).symm⟩
  · cases h

theorem settled_bareDevice : Settled bareSwitch bareDevice where
  peers k := by
    rw [Device.hasPeer, bareDevice, GoMap.get?_set]
    by_cases hk : k = sampleKey 2
    · rw [if_pos hk, hk]
      decide
    · rw [if_neg hk]
      exact iff_of_false (by simp) (mt List.mem_singleton.mp hk)
  interval k v h := by rw [(bareDevice_session h).2]
  endpoint k v h ep hep := by
    have hnone : wantEndpoint bareSwitch.peers (sampleKey 2) = none := by decide
    rw [(bareDevice_session h).1, hnone] at hep
    cases hep
  owner n := by
    show (if _ then _ else _) = takes n none (samplePeer "bob" 2 [sampleNet 0])
    unfold takes
    exact if_congr List.mem_singleton.symm rfl rfl

theorem wgSettled_settledHost : WGSettled bareSwitch settledHost := by
  refine ⟨_, GoMap.get?_set_self _ _ _, fun dev hdev => ?_⟩
  cases hdev
  exact ⟨⟨fun _ => rfl, (fun a ha => by cases ha), rfl⟩, settled_bareDevice⟩

/-- The state is refused on every host that has no other kind of link of that name. -/
theorem bareSwitch_refused (h : Host) (hkind : ∃ dev,
      (((h.get? bareSwitch.wgInterface).getD (newWG willing bareSwitch)).upFor bareSwitch).kind
        = .wireguard dev) :
    ∃ e h' link, reconcile willing bareSwitch h = .error e h' ∧ e.isValidation = true
      ∧ h'.get? bareSwitch.wgInterface = some link := by
  have hK : willing.Willing := fun _ _ => rfl
  obtain ⟨dev, hkind⟩ := hkind
  obtain ⟨h₁, hwg⟩ := ensureWGInterface_runs hK bareSwitch h
  have hlink₁ : h₁.get? bareSwitch.wgInterface
      = some (((h.get? bareSwitch.wgInterface).getD (newWG willing bareSwitch)).upFor
        bareSwitch) := by
    rw [ensureWGInterface_ok hwg, GoMap.get?_set_self]
  have hpeers := requestWGPeers_runs hK hlink₁ hkind
  have hnot : ¬ Complete bareSwitch := by
    unfold Complete
    decide
  obtain ⟨e, hrun, he⟩ := (reconcile_refused (by decide)).mpr ⟨hnot, h₁, hwg, hpeers⟩
  exact ⟨e, _, _, hrun, he, GoMap.get?_set_self _ _ _⟩

theorem rejected_untouched_settled :
    ∃ K e, reconcile K bareSwitch settledHost = .error e settledHost ∧ e.isValidation = true := by
  obtain ⟨e, h', -, hrun, he, -⟩ := bareSwitch_refused settledHost ⟨bareDevice, rfl⟩
  have hsame := (rejected_untouched_iff bareSwitch settledHost).mpr
    (.inr (.inr wgSettled_settledHost)) willing e h' hrun he
  rw [hsame] at hrun
  exact ⟨willing, e, hrun, he⟩

/-- On a host without links the switch is refused, and a WireGuard interface is there. -/
theorem refused_switch_leaves_interface :
    ∃ K e h', reconcile K bareSwitch GoMap.empty = .error e h' ∧ e.isValidation = true
      ∧ h' ≠ GoMap.empty := by
  obtain ⟨e, h', link, hrun, he, hlink⟩ := bareSwitch_refused GoMap.empty ⟨.new, rfl⟩
  refine ⟨willing, e, h', hrun, he, ?_⟩
  rintro rfl
  cases hlink

end Sample

end Gsnet.Dataplane
