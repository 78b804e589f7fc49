import Mathlib

/-!
# Fields between separators

Texts that are put together by writing a separator between fields. A field
without the separator in it can be read off the front or off the back, whatever
else the text holds. When both ends are free, counting decides: as many
separators as there are boundaries leave none for the fields.
-/

namespace Gsnet.Lib

variable {α : Type} {s : α}

/-- **The first separator ends a field that has none in it.** -/
theorem append_cons_inj_left {x y u v : List α} (hx : s ∉ x) (hy : s ∉ y)
    (h : x ++ s :: u = y ++ s :: v) : x = y ∧ u = v := by
  induction x generalizing y with
  | nil =>
      cases y with
      | nil => exact ⟨rfl, (List.cons.inj h).2⟩
      | cons b y => exact absurd (List.mem_cons.mpr (Or.inl (List.cons.inj h).1)) hy
  | cons a x ih =>
      cases y with
      | nil => exact absurd (List.mem_cons.mpr (Or.inl (List.cons.inj h).1.symm)) hx
      | cons b y =>
          obtain ⟨hab, ht⟩ := List.cons.inj h
          obtain ⟨hxy, huv⟩ := ih (fun hm => hx (List.mem_cons_of_mem a hm))
            (fun hm => hy (List.mem_cons_of_mem b hm)) ht
          exact ⟨by rw [hab, hxy], huv⟩

/-- **The last separator begins a field that has none in it.** -/
theorem append_cons_inj_right {x y u v : List α} (hu : s ∉ u) (hv : s ∉ v)
    (h : x ++ s :: u = y ++ s :: v) : x = y ∧ u = v := by
  have hrev : u.reverse ++ s :: x.reverse = v.reverse ++ s :: y.reverse := by
    simpa using congrArg List.reverse h
  obtain ⟨huv, hxy⟩ := append_cons_inj_left (by simpa using hu) (by simpa using hv) hrev
  exact ⟨List.reverse_injective hxy, List.reverse_injective huv⟩

section Count

variable [DecidableEq α]

/-- Every boundary is a separator, and the fields hold the others. -/
theorem count_intercalate (f : List α) (fs : List (List α)) :
    ([s].intercalate (f :: fs)).count s = fs.length + ((f :: fs).map (List.count s)).sum := by
  induction fs generalizing f with
  | nil => simp
  | cons g fs ih =>
      rw [List.intercalate_cons_cons, List.count_append, List.count_append, ih g]
      simp only [List.count_singleton_self, List.map_cons, List.sum_cons, List.length_cons]
      omega

/--
**Fields without the separator are determined by the text and by how many they
are**, even against fields that might hold it.
-/
theorem intercalate_inj {fs gs : List (List α)} (hfs : ∀ f ∈ fs, s ∉ f) (hne : fs ≠ [])
    (hlen : fs.length = gs.length) (h : [s].intercalate fs = [s].intercalate gs) : fs = gs := by
  obtain ⟨f, fs, rfl⟩ := List.exists_cons_of_ne_nil hne
  obtain ⟨g, gs, rfl⟩ := List.exists_cons_of_length_eq_add_one hlen.symm
  have hzero : ((f :: fs).map (List.count s)).sum = 0 := by
    refine List.sum_eq_zero ?_
    intro n hn
    obtain ⟨x, hx, rfl⟩ := List.mem_map.mp hn
    exact List.count_eq_zero.mpr (hfs x hx)
  -- the boundaries take every separator there is, on the other side as well
  have hcount := congrArg (List.count s) h
  rw [count_intercalate, count_intercalate, hzero] at hcount
  have hgs : ∀ x ∈ g :: gs, s ∉ x := by
    intro x hx
    have hle : x.count s ≤ ((g :: gs).map (List.count s)).sum :=
      List.le_sum_of_mem (List.mem_map_of_mem hx)
    simp only [List.length_cons] at hlen
    exact List.count_eq_zero.mp (by omega)
  calc f :: fs = ([s].intercalate (f :: fs)).splitOn s :=
        (List.splitOn_intercalate s hfs (List.cons_ne_nil f fs)).symm
    _ = ([s].intercalate (g :: gs)).splitOn s := by rw [h]
    _ = g :: gs := List.splitOn_intercalate s hgs (List.cons_ne_nil g gs)

end Count

/-- A list is cut at the first element with a property, if it has one. -/
theorem exists_first {α : Type} {p : α → Bool} {l : List α} (h : ¬ ∀ x ∈ l, p x = false) :
    ∃ l₁ x l₂, l = l₁ ++ x :: l₂ ∧ p x = true ∧ ∀ y ∈ l₁, p y = false := by
  have hdrop : l.dropWhile (fun x => !p x) ≠ [] := fun hnil => h fun x hx => by
    simpa using List.dropWhile_eq_nil_iff.mp hnil x hx
  obtain ⟨x, l₂, hl₂⟩ := List.exists_cons_of_ne_nil hdrop
  refine ⟨l.takeWhile fun x => !p x, x, l₂, ?_, ?_, fun y hy => ?_⟩
  · rw [← hl₂, List.takeWhile_append_dropWhile]
  · have hhead := List.head?_dropWhile_not (fun x => !p x) l
    rw [hl₂] at hhead
    simpa using hhead
  · simpa using List.mem_takeWhile_imp hy

end Gsnet.Lib
