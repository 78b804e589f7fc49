import Mathlib

/-!
# Computations that may fail

What it takes for a computation in `Except` to succeed: each of its parts does.
-/

namespace Gsnet.Lib

variable {ε α β : Type}

theorem bind_eq_ok {x : Except ε α} {f : α → Except ε β} {b : β} :
    (x >>= f) = .ok b ↔ ∃ a, x = .ok a ∧ f a = .ok b := by
  cases x with
  | error e =>
      constructor
      · intro h
        cases h
      · rintro ⟨a, ha, -⟩
        cases ha
  | ok a =>
      constructor
      · exact fun h => ⟨a, rfl, h⟩
      · rintro ⟨a', ha, h⟩
        cases ha
        exact h

theorem ok_bind (a : α) (f : α → Except ε β) : (.ok a >>= f : Except ε β) = f a := rfl

theorem toOption_eq_some {x : Except ε α} {a : α} : x.toOption = some a ↔ x = .ok a := by
  cases x <;> simp [Except.toOption]

/-- **A list is gone through with success exactly when every element is.** -/
theorem mapM_eq_ok {f : α → Except ε β} {l : List α} {ys : List β} :
    l.mapM f = .ok ys ↔ List.Forall₂ (fun a b => f a = .ok b) l ys := by
  induction l generalizing ys with
  | nil =>
      rw [List.mapM_nil, List.forall₂_nil_left_iff]
      exact ⟨fun h => by cases h; rfl, fun h => by rw [h]; rfl⟩
  | cons a l ih =>
      rw [List.mapM_cons, bind_eq_ok, List.forall₂_cons_left_iff]
      constructor
      · rintro ⟨b, hb, h⟩
        obtain ⟨bs, hbs, h⟩ := bind_eq_ok.mp h
        cases h
        exact ⟨b, bs, hb, ih.mp hbs, rfl⟩
      · rintro ⟨b, bs, hb, hbs, rfl⟩
        exact ⟨b, hb, bind_eq_ok.mpr ⟨bs, ih.mpr hbs, rfl⟩⟩

theorem mapM_eq_some {f : α → Option β} {l : List α} {ys : List β} :
    l.mapM f = some ys ↔ List.Forall₂ (fun a b => f a = some b) l ys := by
  induction l generalizing ys with
  | nil =>
      rw [List.mapM_nil, List.forall₂_nil_left_iff]
      exact ⟨fun h => (Option.some.inj h).symm, fun h => by rw [h]; rfl⟩
  | cons a l ih =>
      rw [List.mapM_cons, Option.bind_eq_bind, Option.bind_eq_some_iff, List.forall₂_cons_left_iff]
      constructor
      · rintro ⟨b, hb, h⟩
        obtain ⟨bs, hbs, h⟩ := Option.bind_eq_some_iff.mp h
        cases h
        exact ⟨b, bs, hb, ih.mp hbs, rfl⟩
      · rintro ⟨b, bs, hb, hbs, rfl⟩
        exact ⟨b, hb, Option.bind_eq_some_iff.mpr ⟨bs, ih.mpr hbs, rfl⟩⟩

theorem exists_of_mem_mapM {f : α → Except ε β} {l : List α} {ys : List β}
    (h : l.mapM f = .ok ys) {b : β} (hb : b ∈ ys) : ∃ a ∈ l, f a = .ok b := by
  rw [mapM_eq_ok] at h
  induction h with
  | nil => cases hb
  | cons hab _ ih =>
      rcases List.mem_cons.mp hb with rfl | hb
      · exact ⟨_, List.mem_cons_self, hab⟩
      · obtain ⟨a, ha, hab⟩ := ih hb
        exact ⟨a, List.mem_cons_of_mem _ ha, hab⟩

/-- A property of what comes out of every element is one of all that comes out. -/
theorem exists_mapM_iff {f : α → Except ε β} {P : β → Prop} {l : List α} :
    (∃ ys, l.mapM f = .ok ys ∧ ∀ b ∈ ys, P b) ↔ ∀ a ∈ l, ∃ b, f a = .ok b ∧ P b := by
  simp only [mapM_eq_ok]
  induction l with
  | nil => simp
  | cons a l ih =>
      rw [List.forall_mem_cons, ← ih]
      constructor
      · rintro ⟨ys, h, hP⟩
        obtain ⟨b, bs, hb, hbs, rfl⟩ := List.forall₂_cons_left_iff.mp h
        rw [List.forall_mem_cons] at hP
        exact ⟨⟨b, hb, hP.1⟩, bs, hbs, hP.2⟩
      · rintro ⟨⟨b, hb, hPb⟩, bs, hbs, hP⟩
        exact ⟨b :: bs, .cons hb hbs, List.forall_mem_cons.mpr ⟨hPb, hP⟩⟩

/-- A list that is not gone through fails at one of its elements. -/
theorem exists_of_mapM_error {f : α → Except ε β} {l : List α} {e : ε}
    (h : l.mapM f = .error e) : ∃ a ∈ l, f a = .error e := by
  induction l with
  | nil => cases h
  | cons a l ih =>
      rw [List.mapM_cons] at h
      cases ha : f a with
      | error e' =>
          rw [ha] at h
          cases h
          exact ⟨a, List.mem_cons_self, ha⟩
      | ok b =>
          cases hl : l.mapM f with
          | error e' =>
              rw [ha, hl] at h
              cases h
              obtain ⟨a', ha', hfa⟩ := ih hl
              exact ⟨a', List.mem_cons_of_mem a ha', hfa⟩
          | ok bs =>
              rw [ha, hl] at h
              cases h

theorem mapM_congr {f g : α → Except ε β} {l : List α} (h : ∀ a ∈ l, f a = g a) :
    l.mapM f = l.mapM g := by
  induction l with
  | nil => rfl
  | cons a l ih =>
      rw [List.mapM_cons, List.mapM_cons, h a List.mem_cons_self,
        ih fun x hx => h x (List.mem_cons_of_mem a hx)]

/-! ## Runs that carry their state into the error -/

/-- What holds of the state a computation ends in, whether it succeeds or not. -/
def Ends (P : α → Prop) : Except α α → Prop
  | .ok a => P a
  | .error a => P a

theorem Ends.bind {P : α → Prop} {x : Except α α} {f : α → Except α α} (hx : Ends P x)
    (hf : ∀ a, P a → Ends P (f a)) : Ends P (x >>= f) := by
  cases x with
  | ok a => exact hf a hx
  | error a => exact hx

section EStateM

variable {σ : Type} {x : EStateM ε σ α} {f : α → EStateM ε σ β} {s s' : σ}

theorem estate_bind_ok {b : β} :
    (x >>= f) s = .ok b s' ↔ ∃ a s₁, x s = .ok a s₁ ∧ f a s₁ = .ok b s' := by
  show EStateM.bind x f s = _ ↔ _
  unfold EStateM.bind
  cases hx : x s with
  | ok a s₁ => simp
  | error e s₁ => simp

theorem estate_bind_error {e : ε} :
    (x >>= f) s = .error e s'
      ↔ x s = .error e s' ∨ ∃ a s₁, x s = .ok a s₁ ∧ f a s₁ = .error e s' := by
  show EStateM.bind x f s = _ ↔ _
  unfold EStateM.bind
  cases hx : x s with
  | ok a s₁ => simp
  | error e₁ s₁ => simp

/-- A step that succeeds leaves the rest to do. -/
theorem estate_bind_of_ok {a : α} (h : x s = .ok a s') : (x >>= f) s = f a s' := by
  show EStateM.bind x f s = _
  rw [EStateM.bind, h]

end EStateM

/-- **An invariant of every step is one of the whole run**, wherever it stops. -/
theorem ends_foldlM {P : α → Prop} {f : α → β → Except α α}
    (hf : ∀ a b, P a → Ends P (f a b)) (l : List β) {a : α} (ha : P a) :
    Ends P (l.foldlM f a) := by
  induction l generalizing a with
  | nil => exact ha
  | cons b l ih =>
      rw [List.foldlM_cons]
      exact (hf a b ha).bind fun a' ha' => ih ha'

end Gsnet.Lib
