import Gsnet.Go.Bytes
import Gsnet.Go.Map
import Gsnet.Lib.Machine

/-!
# Outbound connections

`Server.Dial`, as the goroutines of `maintainPeer` call it over and over. A call looks
for a connection to the address, connects if there is none, and registers the new
connection. Looking and registering each hold the mutex, connecting does not, so two
calls can both have looked before either registers.

Between its look and its registration a call is on its way to the address. A call
that looks while no other is on its way finds what that other one has registered;
if all calls do, there is never more than one connection (`one_outbound`).
-/

namespace Gsnet.Transport

open Go Lib

/-- Where a goroutine is in its current call. -/
inductive DialStage where
  /-- Between two calls. -/
  | idle
  /-- `hasOutbound` was false. -/
  | checked (addr : GoString)
  /-- The connection is open and `GOSSIP` is sent. -/
  | connected (addr : GoString)
  deriving DecidableEq

/-- The connections of a server, and the goroutines that dial. -/
structure Dialing (ι : Type) where
  /-- `conns`: the `outboundAddr` of each connection, which is empty for an inbound one. -/
  conns : GoMap Nat GoString
  /-- Connections made so far; the next one gets this number. -/
  made : Nat
  stage : ι → DialStage

inductive DialStep (ι : Type) where
  /-- `Dial(addr)` is called and looks. -/
  | check (i : ι) (addr : GoString)
  /-- `DialContext` and the first line, which may fail. -/
  | connect (i : ι) (ok : Bool)
  | track (i : ι)
  /-- A connection is lost. -/
  | untrack (c : Nat)
  /-- A connection from outside is registered. -/
  | accept
  deriving DecidableEq

namespace Dialing

variable {ι : Type}

/-- No connections yet. -/
def start : Dialing ι := ⟨GoMap.empty, 0, fun _ => .idle⟩

def hasOutbound (st : Dialing ι) (addr : GoString) : Bool := decide (addr ∈ st.conns.values)

def act [DecidableEq ι] (st : Dialing ι) : DialStep ι → Option (Dialing ι)
  | .check i addr =>
    if st.stage i = .idle then
      some (if st.hasOutbound addr then st
        else { st with stage := Function.update st.stage i (.checked addr) })
    else none
  | .connect i ok =>
    match st.stage i with
    | .checked addr =>
      some { st with stage := Function.update st.stage i (if ok then .connected addr else .idle) }
    | _ => none
  | .track i =>
    match st.stage i with
    | .connected addr =>
      some ⟨st.conns.set st.made addr, st.made + 1, Function.update st.stage i .idle⟩
    | _ => none
  | .untrack c => some { st with conns := st.conns.delete c }
  | .accept => some { st with conns := st.conns.set st.made [], made := st.made + 1 }

/-- The call has looked for a connection to the address and has yet to register one. -/
def OnWay (st : Dialing ι) (i : ι) (addr : GoString) : Prop :=
  st.stage i = .checked addr ∨ st.stage i = .connected addr

instance (st : Dialing ι) (i : ι) (addr : GoString) : Decidable (st.OnWay i addr) :=
  inferInstanceAs (Decidable (_ ∨ _))

/-- No call looks while another is on its way to the same address. -/
def Alone (st : Dialing ι) : DialStep ι → Prop
  | .check _ addr => ∀ j, ¬ st.OnWay j addr
  | _ => True

instance [Fintype ι] (st : Dialing ι) (a : DialStep ι) : Decidable (st.Alone a) := by
  cases a <;> unfold Alone <;> infer_instance

/-! ## One connection for each address -/

/-- An address is held by one call or by one connection. -/
structure Inv (st : Dialing ι) : Prop where
  /-- Numbers are not given twice. -/
  fresh : ∀ c addr, st.conns.get? c = some addr → c < st.made
  conns : ∀ c c' addr, addr ≠ [] → st.conns.get? c = some addr → st.conns.get? c' = some addr →
    c = c'
  calls : ∀ i j addr, st.OnWay i addr → st.OnWay j addr → i = j
  apart : ∀ i c addr, addr ≠ [] → st.OnWay i addr → st.conns.get? c ≠ some addr

theorem inv_start : Inv (start : Dialing ι) where
  fresh c addr h := by cases h
  conns c c' addr _ h _ := by cases h
  calls i j addr h _ := by rcases h with h | h <;> cases h
  apart i c addr _ _ h := by cases h

variable {st : Dialing ι}

theorem hasOutbound_iff {addr : GoString} :
    st.hasOutbound addr = true ↔ ∃ c, st.conns.get? c = some addr := by
  rw [hasOutbound, decide_eq_true_iff, GoMap.mem_values]

theorem lt_made_of_set (h : Inv st) (addr : GoString) (c : Nat) (a : GoString)
    (hc : (st.conns.set st.made addr).get? c = some a) : c < st.made + 1 := by
  rw [GoMap.get?_set] at hc
  split at hc
  · omega
  · exact Nat.lt_succ_of_lt (h.fresh c a hc)

theorem Inv.untrack (h : Inv st) (c : Nat) : Inv { st with conns := st.conns.delete c } := by
  have hback : ∀ c' addr,
      (st.conns.delete c).get? c' = some addr → st.conns.get? c' = some addr := by
    intro c' addr hc'
    rw [GoMap.get?_delete] at hc'
    split at hc'
    · cases hc'
    · exact hc'
  exact ⟨fun c' addr hc' => h.fresh c' addr (hback c' addr hc'),
    fun c₁ c₂ addr hne h₁ h₂ => h.conns c₁ c₂ addr hne (hback c₁ addr h₁) (hback c₂ addr h₂),
    h.calls, fun i c' addr hne hi hc' => h.apart i c' addr hne hi (hback c' addr hc')⟩

theorem Inv.accept (h : Inv st) :
    Inv { st with conns := st.conns.set st.made [], made := st.made + 1 } := by
  have hback : ∀ c addr, addr ≠ [] → (st.conns.set st.made []).get? c = some addr →
      st.conns.get? c = some addr := by
    intro c addr hne hc
    rw [GoMap.get?_set] at hc
    split at hc
    · cases hc
      exact absurd rfl hne
    · exact hc
  exact ⟨lt_made_of_set h [], fun c c' addr hne hc hc' =>
    h.conns c c' addr hne (hback c addr hne hc) (hback c' addr hne hc'), h.calls,
    fun i c addr hne hi hc => h.apart i c addr hne hi (hback c addr hne hc)⟩

section Calls

variable [DecidableEq ι]

/-- Where a call is on its way to after another step of its own. -/
theorem onWay_update {i j : ι} {s : DialStage} {addr : GoString} {conns : GoMap Nat GoString}
    {made : Nat} (h : (Dialing.mk conns made (Function.update st.stage i s)).OnWay j addr) :
    j = i ∧ (s = .checked addr ∨ s = .connected addr) ∨ j ≠ i ∧ st.OnWay j addr := by
  by_cases hj : j = i
  · subst hj
    simp only [OnWay, Function.update_self] at h
    exact .inl ⟨rfl, h⟩
  · simp only [OnWay, Function.update_of_ne hj] at h
    exact .inr ⟨hj, h⟩

/-- A call goes no further than it was, or gives up. -/
theorem Inv.move (h : Inv st) {i : ι} {s : DialStage}
    (hs : ∀ addr, s = .checked addr ∨ s = .connected addr → st.OnWay i addr) :
    Inv { st with stage := Function.update st.stage i s } := by
  have hback : ∀ j addr, Dialing.OnWay { st with stage := Function.update st.stage i s } j addr →
      st.OnWay j addr := by
    intro j addr hj
    rcases onWay_update hj with ⟨rfl, hnew⟩ | ⟨-, hold⟩
    · exact hs addr hnew
    · exact hold
  exact ⟨h.fresh, h.conns,
    fun j k addr hj hk => h.calls j k addr (hback j addr hj) (hback k addr hk),
    fun j c addr hne hj => h.apart j c addr hne (hback j addr hj)⟩

/-- A call that finds no connection, and no other call on its way. -/
theorem Inv.check (h : Inv st) {i : ι} {addr : GoString} (hnone : st.hasOutbound addr = false)
    (halone : ∀ j, ¬ st.OnWay j addr) :
    Inv { st with stage := Function.update st.stage i (.checked addr) } where
  fresh := h.fresh
  conns := h.conns
  calls := by
    intro j k a hj hk
    rcases onWay_update hj with ⟨hji, hnew⟩ | ⟨-, hold⟩
    · rcases onWay_update hk with ⟨hki, -⟩ | ⟨-, hold'⟩
      · rw [hji, hki]
      · rcases hnew with heq | heq <;> cases heq
        exact absurd hold' (halone k)
    · rcases onWay_update hk with ⟨-, hnew⟩ | ⟨-, hold'⟩
      · rcases hnew with heq | heq <;> cases heq
        exact absurd hold (halone j)
      · exact h.calls j k a hold hold'
  apart := by
    intro j c a hne hj hc
    rcases onWay_update hj with ⟨-, heq | heq⟩ | ⟨-, hold⟩
    · cases heq
      have hsome : st.hasOutbound addr = true := hasOutbound_iff.mpr ⟨c, hc⟩
      rw [hnone] at hsome
      cases hsome
    · cases heq
    · exact h.apart j c a hne hold hc

/-- The address passes from the call to its connection. -/
theorem Inv.track (h : Inv st) {i : ι} {addr : GoString} (hi : st.stage i = .connected addr) :
    Inv ⟨st.conns.set st.made addr, st.made + 1, Function.update st.stage i .idle⟩ where
  fresh := lt_made_of_set h addr
  conns := by
    intro c c' a hne hc hc'
    rw [GoMap.get?_set] at hc hc'
    split at hc
    · rename_i heq
      cases hc
      split at hc'
      · omega
      · exact absurd hc' (h.apart i c' addr hne (.inr hi))
    · split at hc'
      · cases hc'
        exact absurd hc (h.apart i c addr hne (.inr hi))
      · exact h.conns c c' a hne hc hc'
  calls := by
    intro j k a hj hk
    rcases onWay_update hj with ⟨-, heq | heq⟩ | ⟨-, hold⟩
    · cases heq
    · cases heq
    · rcases onWay_update hk with ⟨-, heq | heq⟩ | ⟨-, hold'⟩
      · cases heq
      · cases heq
      · exact h.calls j k a hold hold'
  apart := by
    intro j c a hne hj hc
    rcases onWay_update hj with ⟨-, heq | heq⟩ | ⟨hji, hold⟩
    · cases heq
    · cases heq
    · rw [GoMap.get?_set] at hc
      split at hc
      · cases hc
        exact hji (h.calls j i addr hold (.inr hi))
      · exact h.apart j c a hne hold hc

/-- **Every step keeps it**, as long as no call looks while another is on its way. -/
theorem Inv.step (h : Inv st) {a : DialStep ι} {st' : Dialing ι} (hok : st.Alone a)
    (hact : st.act a = some st') : Inv st' := by
  cases a with
  | check i addr =>
      simp only [act] at hact
      split at hact
      · cases hout : st.hasOutbound addr with
        | true =>
            rw [hout, if_pos rfl] at hact
            cases hact
            exact h
        | false =>
            rw [hout, if_neg (by simp)] at hact
            cases hact
            exact h.check hout hok
      · cases hact
  | connect i ok =>
      simp only [act] at hact
      split at hact
      · rename_i addr hi
        cases hact
        refine h.move fun a ha => ?_
        cases ok with
        | true =>
            rcases ha with heq | heq <;> cases heq
            exact .inl hi
        | false => rcases ha with heq | heq <;> cases heq
      · cases hact
  | track i =>
      simp only [act] at hact
      split at hact
      · rename_i addr hi
        cases hact
        exact h.track hi
      · cases hact
  | untrack c =>
      cases hact
      exact h.untrack c
  | accept =>
      cases hact
      exact h.accept

/--
**At every moment there is at most one outbound connection to an address**, if calls
for one address do not overlap between looking and registering.
-/
theorem one_outbound (hreach : Reached act Alone (start : Dialing ι) st) {addr : GoString}
    (hne : addr ≠ []) {c c' : Nat} (hc : st.conns.get? c = some addr)
    (hc' : st.conns.get? c' = some addr) : c = c' :=
  (hreach.invariant inv_start fun _ _ _ h hok hact => h.step hok hact).conns c c' addr hne hc hc'

end Calls

/-- The second goroutine looks when the first has registered, and does not connect. -/
theorem one_outbound_in_turn :
    ∃ st : Dialing Bool, st.conns.get? 0 = some (str "h:1") ∧ st.stage true = .idle
      ∧ ∀ c, st.conns.get? c = some (str "h:1") → c = 0 := by
  have hrun : ∃ st : Dialing Bool, Reached act Alone start st
      ∧ st.conns.get? 0 = some (str "h:1") ∧ st.stage true = .idle :=
    exists_reached_of_runActs
      [.check false (str "h:1"), .connect false true, .track false, .check true (str "h:1")]
      (by decide +kernel)
  obtain ⟨st, hreach, hfirst, hidle⟩ := hrun
  exact ⟨st, hfirst, hidle, fun c hc => one_outbound hreach (by decide) hc hfirst⟩

/-- Both goroutines look before either registers. -/
theorem two_outbound :
    ∃ st : Dialing Bool, Reached act (fun _ _ => True) start st
      ∧ st.conns.get? 0 = some (str "h:1") ∧ st.conns.get? 1 = some (str "h:1") :=
  exists_reached_of_runActs
    [.check false (str "h:1"), .check true (str "h:1"), .connect false true, .connect true true,
      .track false, .track true]
    (by decide +kernel)

end Dialing

end Gsnet.Transport
