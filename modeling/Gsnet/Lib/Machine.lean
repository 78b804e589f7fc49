import Mathlib.Logic.Function.Basic

/-!
# Machines with labelled steps

A machine is a function from a state and a label to the next state, undefined
where the label is not enabled. `Reached` is what some run leads to; it is taken
relative to a condition on the steps, so that one can speak of the runs all of
whose steps are of a kind.
-/

namespace Gsnet.Lib

variable {σ α : Type} (act : σ → α → Option σ)

/-- The states a run from `start` leads to, when `ok` holds of its every step. -/
inductive Reached (ok : σ → α → Prop) (start : σ) : σ → Prop
  | init : Reached ok start start
  | step {s s' : σ} {a : α} : Reached ok start s → ok s a → act s a = some s' → Reached ok start s'

/-- A run given by its labels. -/
def runActs (s : σ) (labels : List α) : Option σ := labels.foldlM act s

variable {act}

/-- **What every step keeps holds in every state reached.** -/
theorem Reached.invariant {ok : σ → α → Prop} {start s : σ} {I : σ → Prop} (hinit : I start)
    (hstep : ∀ s a s', I s → ok s a → act s a = some s' → I s') (h : Reached act ok start s) :
    I s := by
  induction h with
  | init => exact hinit
  | step _ hok hact ih => exact hstep _ _ _ ih hok hact

/-- A run whose steps are of a kind is one whose steps are of any wider kind. -/
theorem Reached.mono {ok ok' : σ → α → Prop} {start s : σ} (hok : ∀ s a, ok s a → ok' s a)
    (h : Reached act ok start s) : Reached act ok' start s := by
  induction h with
  | init => exact .init
  | step _ ha hact ih => exact .step ih (hok _ _ ha) hact

/-- The machine that refuses the steps that are not `ok`. -/
def guarded (act : σ → α → Option σ) (ok : σ → α → Prop) [∀ s a, Decidable (ok s a)] (s : σ)
    (a : α) : Option σ :=
  if ok s a then act s a else none

theorem guarded_true : guarded act (fun _ _ => True) = act := by
  funext s a
  exact if_pos trivial

/-- A state reached by running through the labels. -/
theorem reached_of_runActs {ok : σ → α → Prop} [∀ s a, Decidable (ok s a)] {start s s' : σ}
    {labels : List α} (h : Reached act ok start s)
    (hrun : runActs (guarded act ok) s labels = some s') : Reached act ok start s' := by
  induction labels generalizing s with
  | nil =>
      cases hrun
      exact h
  | cons a labels ih =>
      unfold runActs at hrun
      rw [List.foldlM_cons] at hrun
      -- one label at a time, as the guard lets it through
      cases hact : guarded act ok s a with
      | none => rw [hact] at hrun; cases hrun
      | some t =>
          rw [hact] at hrun
          unfold guarded at hact
          split at hact
          · rename_i hok
            exact ih (.step h hok hact) hrun
          · cases hact

/-- A state to be found by running. -/
theorem exists_reached_of_runActs {ok : σ → α → Prop} [∀ s a, Decidable (ok s a)] {start : σ}
    {P : σ → Prop} [DecidablePred P] (labels : List α)
    (hrun : (runActs (guarded act ok) start labels).any (fun s => decide (P s)) = true) :
    ∃ s, Reached act ok start s ∧ P s := by
  cases hs : runActs (guarded act ok) start labels with
  | none => rw [hs] at hrun; cases hrun
  | some s =>
      rw [hs] at hrun
      exact ⟨s, reached_of_runActs .init hs, of_decide_eq_true hrun⟩

end Gsnet.Lib
