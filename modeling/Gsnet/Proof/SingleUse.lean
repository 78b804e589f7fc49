import Gsnet.Lib.Machine
import Gsnet.Proof.Confine

/-!
# How often an invitation can be used

Every connection is served in its own goroutine, and nothing keeps two of them
from presenting one cookie at a time. `handleInviteJoin` reads the invitation,
writes the host file and removes the invitation in three steps, and does not ask
whether the removal worked. So the invitation is used up only if no call reads it
while another is between its reading and its removal, and the removal works.
-/

namespace Gsnet.Daemon

open Go FileSystem Lib

/-- What a client sends along with the cookie. -/
structure JoinCall where
  inviteeName : GoString
  hostConfig : GoString

/-- How far a call of `handleInviteJoin` has come. -/
inductive JoinStage where
  | called
  /-- It has read the invitation, and it is for that node. -/
  | read (file : GoString)
  /-- It has written the host file. -/
  | wrote (file : GoString)
  /-- It has returned the invitation. -/
  | succeeded (file : GoString)
  | failed
  deriving DecidableEq

namespace JoinStage

/-- Between the reading and the removal. -/
def busy : JoinStage → Bool
  | read _ | wrote _ => true
  | _ => false

def hasSucceeded : JoinStage → Bool
  | succeeded _ => true
  | _ => false

end JoinStage

inductive JoinStep (ι : Type) where
  | read (i : ι)
  /-- `faults` is what the file system does to writes at that time. -/
  | write (i : ι) (faults : GoMap Location Fault)
  /-- `works` is whether the file system does as it is told. -/
  | remove (i : ι) (works : Bool)
  deriving DecidableEq

/-- The file system and the calls. -/
structure Joining (ι : Type) where
  fs : FileSystem
  stage : ι → JoinStage

namespace Joining

variable {ι : Type} [DecidableEq ι] (paths : Paths) (cookie : GoString)

def start (fs : FileSystem) : Joining ι := ⟨fs, fun _ => .called⟩

/-- One step of one of the calls that present the cookie. -/
def act (calls : ι → JoinCall) (st : Joining ι) : JoinStep ι → Option (Joining ι)
  | .read i =>
    match st.stage i with
    | .called =>
      match readInvitation st.fs paths cookie (calls i).inviteeName with
      | .ok file => some ⟨st.fs, Function.update st.stage i (.read file)⟩
      | .error _ => some ⟨st.fs, Function.update st.stage i .failed⟩
    | _ => none
  | .write i faults =>
    match st.stage i with
    | .read file =>
      let fs := { st.fs with faults := faults }
      match writeHost fs paths (calls i).inviteeName (calls i).hostConfig with
      | .ok fs => some ⟨fs, Function.update st.stage i (.wrote file)⟩
      | .error fs => some ⟨fs, Function.update st.stage i .failed⟩
    | _ => none
  | .remove i works =>
    match st.stage i with
    | .wrote file =>
      some ⟨if works then consume st.fs paths cookie else st.fs,
        Function.update st.stage i (.succeeded file)⟩
    | _ => none

/-- **A call that nothing interrupts is `handleInviteJoin`.** -/
theorem act_alone (calls : ι → JoinCall) (st : Joining ι) (i : ι) (hi : st.stage i = .called) :
    ∃ labels st', runActs (act paths cookie calls) st labels = some st'
      ∧ st'.fs = (handleInviteJoin st.fs paths cookie (calls i).inviteeName (calls i).hostConfig).fs
      ∧ ∀ file, st'.stage i = .succeeded file ↔ (handleInviteJoin st.fs paths cookie
          (calls i).inviteeName (calls i).hostConfig).reply = .ok file := by
  cases hr : readInvitation st.fs paths cookie (calls i).inviteeName with
  | error e =>
      refine ⟨[.read i], ⟨st.fs, Function.update st.stage i .failed⟩, ?_, ?_, ?_⟩
      · simp [runActs, act, hi, hr]
      · simp [handleInviteJoin, hr]
      · simp [handleInviteJoin, hr]
  | ok file =>
      cases hw : writeHost st.fs paths (calls i).inviteeName (calls i).hostConfig with
      | error fs =>
          refine ⟨[.read i, .write i st.fs.faults], ⟨fs, Function.update st.stage i .failed⟩,
            ?_, ?_, ?_⟩
          · simp [runActs, act, hi, hr, hw]
          · simp [handleInviteJoin, hr, hw]
          · simp [handleInviteJoin, hr, hw]
      | ok fs =>
          refine ⟨[.read i, .write i st.fs.faults, .remove i true], ⟨consume fs paths cookie,
            Function.update st.stage i (.succeeded file)⟩, ?_, ?_, ?_⟩
          · simp [runActs, act, hi, hr, hw]
          · simp [handleInviteJoin, hr, hw]
          · simp [handleInviteJoin, hr, hw]

/--
No call reads the invitation, so that it can go on, while another is between its
reading and its removal; and what is removed is gone.
-/
def Serial (calls : ι → JoinCall) (st : Joining ι) : JoinStep ι → Prop
  | .read i => (readInvitation st.fs paths cookie (calls i).inviteeName).isOk = true →
      ∀ j, (st.stage j).busy = false
  | .write _ _ => True
  | .remove _ works => works = true

instance [Fintype ι] (calls : ι → JoinCall) (st : Joining ι) (a : JoinStep ι) :
    Decidable (Serial paths cookie calls st a) :=
  match a with
  | .read _ => inferInstanceAs (Decidable (_ → _))
  | .write _ _ => inferInstanceAs (Decidable True)
  | .remove _ _ => inferInstanceAs (Decidable (_ = _))

/-- The cookie leads to a file. -/
def Present (fs : FileSystem) : Prop :=
  ∃ content, fs.readFile (invitationPath paths cookie) = .ok content

/-- Who may hold the invitation, and what is left of it. -/
structure Inv (st : Joining ι) : Prop where
  /-- At most one call is between its reading and its removal. -/
  one : ∀ i j, (st.stage i).busy = true → (st.stage j).busy = true → i = j
  /-- While there is one, the invitation stands. -/
  present : ∀ i, (st.stage i).busy = true → Present paths cookie st.fs
  /-- Once a call has succeeded there is none, and the invitation is gone. -/
  gone : ∀ i, (st.stage i).hasSucceeded = true →
    ¬ Present paths cookie st.fs ∧ ∀ j, (st.stage j).busy = false
  once : ∀ i j, (st.stage i).hasSucceeded = true → (st.stage j).hasSucceeded = true → i = j

variable {paths cookie}

theorem present_of_readInvitation {fs : FileSystem} {name file : GoString}
    (h : readInvitation fs paths cookie name = .ok file) : Present paths cookie fs := by
  obtain ⟨content, f, hread, -⟩ := readInvitation_ok_iff.mp ⟨file, h⟩
  exact ⟨content, hread⟩

/-- Writing the host file may overwrite the invitation, but does not take it away. -/
theorem present_writeHost {fs fs' : FileSystem} {name hostConfig : GoString}
    (h : Present paths cookie fs) (hw : writeHost fs paths name hostConfig = .ok fs') :
    Present paths cookie fs' := by
  obtain ⟨content, hread⟩ := h
  obtain ⟨h0, hroot, hfile⟩ := readFile_eq_ok.mp hread
  have honly := @onlyHost_writeHost fs paths name hostConfig
  rw [hw] at honly
  have hloc := locate_congr honly.cwd (invitationPath paths cookie)
  unfold Present
  simp only [readFile_eq_ok, hloc]
  by_cases heq : fs.locate (invitationPath paths cookie) = walk (fs.locate paths.hostsDir) name
  · exact ⟨hostConfig, h0, hroot, by rw [heq, (writeHost_ok hw).2]⟩
  · exact ⟨content, h0, hroot, (honly.files _ _ fun _ => heq).mpr hfile⟩

theorem not_present_consume {fs : FileSystem} (h : Present paths cookie fs) :
    ¬ Present paths cookie (consume fs paths cookie) := by
  obtain ⟨content, hread⟩ := h
  obtain ⟨h0, -, hfile⟩ := readFile_eq_ok.mp hread
  rintro ⟨content', hread'⟩
  have hcall : consume fs paths cookie
      = { fs with nodes := fs.nodes.delete (fs.locate (invitationPath paths cookie)) } := by
    unfold consume
    rw [remove_file h0 hfile, Option.getD_some]
  rw [hcall] at hread'
  have hget := (readFile_eq_ok.mp hread').2.2
  have hloc : ({ fs with nodes := fs.nodes.delete (fs.locate (invitationPath paths cookie)) }
      : FileSystem).locate (invitationPath paths cookie)
        = fs.locate (invitationPath paths cookie) := locate_congr rfl _
  rw [hloc, GoMap.get?_delete, if_pos rfl] at hget
  cases hget

omit [DecidableEq ι] in
theorem inv_start (fs : FileSystem) : (start fs : Joining ι).Inv paths cookie where
  one := by intro i j h; cases h
  present := by intro i h; cases h
  gone := by intro i h; cases h
  once := by intro i j h; cases h

omit [DecidableEq ι] in
/-- While a call is busy, none has succeeded. -/
theorem Inv.not_succeeded {st : Joining ι} (h : st.Inv paths cookie) {i : ι}
    (hi : (st.stage i).busy = true) (j : ι) : (st.stage j).hasSucceeded = false := by
  by_contra hj
  rw [Bool.not_eq_false] at hj
  have hidle := (h.gone j hj).2 i
  rw [hi] at hidle
  cases hidle

/-- A call fails, having touched nothing, or while it was the busy one. -/
theorem Inv.fail {st : Joining ι} (h : st.Inv paths cookie) {i : ι} {fs : FileSystem}
    (hfs : fs = st.fs ∨ (st.stage i).busy = true) :
    (⟨fs, Function.update st.stage i .failed⟩ : Joining ι).Inv paths cookie := by
  -- what is busy or has succeeded after the step is another call, and was so before
  have hbusy : ∀ j, (Function.update st.stage i .failed j).busy = true →
      j ≠ i ∧ (st.stage j).busy = true := by
    intro j hj
    by_cases hji : j = i
    · rw [hji, Function.update_self] at hj; cases hj
    · rw [Function.update_of_ne hji] at hj; exact ⟨hji, hj⟩
  have hsucc : ∀ j, (Function.update st.stage i .failed j).hasSucceeded = true →
      (st.stage j).hasSucceeded = true := by
    intro j hj
    by_cases hji : j = i
    · rw [hji, Function.update_self] at hj; cases hj
    · rwa [Function.update_of_ne hji] at hj
  constructor
  · intro j k hj hk
    exact h.one j k (hbusy j hj).2 (hbusy k hk).2
  · intro j hj
    rcases hfs with rfl | hi
    · exact h.present j (hbusy j hj).2
    · exact absurd (h.one j i (hbusy j hj).2 hi) (hbusy j hj).1
  · intro j hj
    rcases hfs with rfl | hi
    · refine ⟨(h.gone j (hsucc j hj)).1, fun k => ?_⟩
      by_contra hk
      rw [Bool.not_eq_false] at hk
      have hidle := (h.gone j (hsucc j hj)).2 k
      rw [(hbusy k hk).2] at hidle
      cases hidle
    · have hnone := h.not_succeeded hi j
      rw [hsucc j hj] at hnone
      cases hnone
  · intro j k hj hk
    exact h.once j k (hsucc j hj) (hsucc k hk)

/-- A call is busy now, and no other is. -/
theorem inv_of_busy {st : Joining ι} {i : ι} {s : JoinStage} {fs : FileSystem}
    (hs : s.busy = true) (hpresent : Present paths cookie fs)
    (hidle : ∀ j, j ≠ i → (st.stage j).busy = false)
    (hnone : ∀ j, (st.stage j).hasSucceeded = false) :
    (⟨fs, Function.update st.stage i s⟩ : Joining ι).Inv paths cookie := by
  have hbusy : ∀ j, (Function.update st.stage i s j).busy = true → j = i := by
    intro j hj
    by_contra hji
    rw [Function.update_of_ne hji, hidle j hji] at hj
    cases hj
  have hsucc : ∀ j, (Function.update st.stage i s j).hasSucceeded = false := by
    intro j
    by_cases hji : j = i
    · rw [hji, Function.update_self]
      cases s with
      | read f => rfl
      | wrote f => rfl
      | _ => cases hs
    · rw [Function.update_of_ne hji, hnone j]
  constructor
  · intro j k hj hk
    rw [hbusy j hj, hbusy k hk]
  · intro j _
    exact hpresent
  · intro j hj
    rw [hsucc j] at hj
    cases hj
  · intro j k hj
    rw [hsucc j] at hj
    cases hj

/-- The busy call succeeds, and the invitation is gone. -/
theorem Inv.succeed {st : Joining ι} (h : st.Inv paths cookie) {i : ι} {file : GoString}
    (hi : (st.stage i).busy = true) :
    (⟨consume st.fs paths cookie, Function.update st.stage i (.succeeded file)⟩
      : Joining ι).Inv paths cookie := by
  have hbusy : ∀ j, (Function.update st.stage i (.succeeded file) j).busy = false := by
    intro j
    by_cases hji : j = i
    · rw [hji, Function.update_self]; rfl
    · rw [Function.update_of_ne hji]
      by_contra hj
      rw [Bool.not_eq_false] at hj
      exact hji (h.one j i hj hi)
  have hsucc : ∀ j,
      (Function.update st.stage i (.succeeded file) j).hasSucceeded = true → j = i := by
    intro j hj
    by_contra hji
    rw [Function.update_of_ne hji, h.not_succeeded hi j] at hj
    cases hj
  constructor
  · intro j k hj
    rw [hbusy j] at hj
    cases hj
  · intro j hj
    rw [hbusy j] at hj
    cases hj
  · intro j _
    exact ⟨not_present_consume (h.present i hi), hbusy⟩
  · intro j k hj hk
    rw [hsucc j hj, hsucc k hk]

theorem inv_step {calls : ι → JoinCall} {st st' : Joining ι} {a : JoinStep ι}
    (h : st.Inv paths cookie) (hok : Serial paths cookie calls st a)
    (hact : st.act paths cookie calls a = some st') : st'.Inv paths cookie := by
  cases a with
  | read i =>
      simp only [act] at hact
      split at hact
      · split at hact
        · rename_i file hr
          cases hact
          have hidle : ∀ j, (st.stage j).busy = false := hok (by rw [hr]; rfl)
          have hpresent := present_of_readInvitation hr
          refine inv_of_busy rfl hpresent (fun j _ => hidle j) (fun j => ?_)
          -- after a success there would be nothing to read
          by_contra hj
          rw [Bool.not_eq_false] at hj
          exact (h.gone j hj).1 hpresent
        · cases hact
          exact h.fail (.inl rfl)
      · cases hact
  | write i faults =>
      simp only [act] at hact
      split at hact
      · rename_i file hi
        have hbusy : (st.stage i).busy = true := by rw [hi]; rfl
        split at hact
        · rename_i fs hw
          cases hact
          have hpresent : Present paths cookie { st.fs with faults := faults } := h.present i hbusy
          refine inv_of_busy rfl (present_writeHost hpresent hw) ?_ (h.not_succeeded hbusy)
          intro j hji
          by_contra hj
          rw [Bool.not_eq_false] at hj
          exact hji (h.one j i hj hbusy)
        · cases hact
          exact h.fail (.inr hbusy)
      · cases hact
  | remove i works =>
      simp only [act] at hact
      split at hact
      · rename_i file hi
        cases hact
        have hworks : works = true := hok
        rw [hworks, if_pos rfl]
        exact h.succeed (by rw [hi]; rfl)
      · cases hact

end Joining

open Joining

section Sample

end Sample

end Gsnet.Daemon
