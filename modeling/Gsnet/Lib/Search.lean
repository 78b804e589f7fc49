import Mathlib

/-!
# Breadth-first search

A search keeps what it has seen and a queue of what it has still to look at. It takes
the first of the queue and adds the neighbours it has not seen to both. When the
queue is empty, it has seen exactly what can be reached.

What it has seen grows by as much as the queue does, so a round, which takes one
element from the queue, brings the search nearer to its end by one. That bounds the
number of rounds by the size of any set the search cannot leave.
-/

namespace Gsnet.Lib

variable {α : Type}

/-- How far a search is. -/
structure Search (α : Type) where
  visited : Finset α
  queue : List α

namespace Search

/-- The search at its start. -/
def start (a : α) : Search α := ⟨{a}, [a]⟩

variable [DecidableEq α]

/-- A neighbour that has been seen is not looked at again. -/
def see (s : Search α) (v : α) : Search α :=
  if v ∈ s.visited then s else ⟨insert v s.visited, s.queue ++ [v]⟩

/-- What has been seen when the queue is empty; `none` if it is not after so many rounds. -/
def run (next : α → List α) : Nat → Search α → Option (Finset α)
  | _, ⟨visited, []⟩ => some visited
  | 0, ⟨_, _ :: _⟩ => none
  | fuel + 1, ⟨visited, v :: queue⟩ => run next fuel ((next v).foldl see ⟨visited, queue⟩)

/-! ## One round -/

/-- **What the neighbours of one element add**: to both the same elements. -/
theorem foldl_see (l : List α) (s : Search α) :
    (l.foldl see s).visited = s.visited ∪ l.toFinset
      ∧ ∃ new, (l.foldl see s).queue = s.queue ++ new
        ∧ (∀ w ∈ (l.foldl see s).visited, w ∈ s.visited ∨ w ∈ new) ∧ (∀ w ∈ new, w ∈ l)
        ∧ (l.foldl see s).visited.card = s.visited.card + new.length := by
  induction l generalizing s with
  | nil => exact ⟨by simp, [], by simp, by simp, by simp, by simp⟩
  | cons v l ih =>
      rw [List.foldl_cons]
      obtain ⟨hvisited, new, hqueue, hcover, hnew, hcard⟩ := ih (s.see v)
      by_cases hv : v ∈ s.visited
      · have hsee : s.see v = s := if_pos hv
        rw [hsee] at hvisited hqueue hcover hcard ⊢
        refine ⟨?_, new, hqueue, hcover, fun w hw => List.mem_cons_of_mem v (hnew w hw), hcard⟩
        rw [hvisited, List.toFinset_cons, Finset.union_insert, Finset.insert_eq_of_mem]
        exact Finset.mem_union_left _ hv
      · have hsee : s.see v = ⟨insert v s.visited, s.queue ++ [v]⟩ := if_neg hv
        rw [hsee] at hvisited hqueue hcover hcard ⊢
        refine ⟨?_, v :: new, ?_, fun w hw => ?_, ?_, ?_⟩
        · rw [hvisited, List.toFinset_cons, Finset.insert_union, Finset.union_insert]
        · rw [hqueue, List.append_assoc, List.singleton_append]
        · rcases hcover w hw with hw | hw
          · rcases Finset.mem_insert.mp hw with rfl | hw
            · exact .inr List.mem_cons_self
            · exact .inl hw
          · exact .inr (List.mem_cons_of_mem v hw)
        · intro w hw
          rcases List.mem_cons.mp hw with rfl | hw
          · exact List.mem_cons_self
          · exact List.mem_cons_of_mem v (hnew w hw)
        · rw [hcard, Finset.card_insert_of_notMem hv, List.length_cons]
          omega

/-- What a search from `a` knows. -/
structure Inv (next : α → List α) (a : α) (s : Search α) : Prop where
  start : a ∈ s.visited
  /-- Whatever was seen can be reached. -/
  sound : ∀ v ∈ s.visited, Relation.ReflTransGen (fun x y => y ∈ next x) a v
  queued : ∀ v ∈ s.queue, v ∈ s.visited
  /-- What is no longer in the queue has been looked at. -/
  looked : ∀ v ∈ s.visited, v ∉ s.queue → ∀ w ∈ next v, w ∈ s.visited

variable {next : α → List α} {a : α}

omit [DecidableEq α] in
theorem inv_start : Inv next a (.start a) where
  start := Finset.mem_singleton_self a
  sound v hv := by
    rw [Finset.mem_singleton.mp hv]
  queued v hv := by
    rw [List.mem_singleton.mp hv]
    exact Finset.mem_singleton_self a
  looked v hv hq := by
    rw [Finset.mem_singleton.mp hv] at hq
    exact absurd List.mem_cons_self hq

/-- **A round keeps it.** -/
theorem Inv.round {visited : Finset α} {v : α} {queue : List α}
    (h : Inv next a ⟨visited, v :: queue⟩) :
    Inv next a ((next v).foldl see ⟨visited, queue⟩) := by
  obtain ⟨hvisited, new, hqueue, hcover, hnew, -⟩ := foldl_see (next v) ⟨visited, queue⟩
  have hv : v ∈ visited := h.queued v List.mem_cons_self
  have hsub : ∀ w ∈ visited, w ∈ ((next v).foldl see ⟨visited, queue⟩).visited := by
    intro w hw
    rw [hvisited]
    exact Finset.mem_union_left _ hw
  have hnext : ∀ w ∈ next v, w ∈ ((next v).foldl see ⟨visited, queue⟩).visited := by
    intro w hw
    rw [hvisited]
    exact Finset.mem_union_right _ (List.mem_toFinset.mpr hw)
  refine ⟨hsub a h.start, fun w hw => ?_, fun w hw => ?_, fun w hw hq x hx => ?_⟩
  · rcases hcover w hw with hw | hw
    · exact h.sound w hw
    · exact (h.sound v hv).tail (hnew w hw)
  · rw [hqueue] at hw
    rcases List.mem_append.mp hw with hw | hw
    · exact hsub w (h.queued w (List.mem_cons_of_mem v hw))
    · exact hnext w (hnew w hw)
  · rw [hqueue, List.mem_append, not_or] at hq
    have hold : w ∈ visited := (hcover w hw).resolve_right hq.2
    by_cases hwv : w = v
    · rw [hwv] at hx
      exact hnext x hx
    · have hnotMem : w ∉ v :: queue := by
        rw [List.mem_cons, not_or]
        exact ⟨hwv, hq.1⟩
      exact hsub x (h.looked w hold hnotMem x hx)

/-! ## The whole search -/

/-- What a search has seen at its end is what can be reached. -/
theorem Inv.mem_run {fuel : Nat} {s : Search α} {seen : Finset α} (h : Inv next a s)
    (hrun : run next fuel s = some seen) (v : α) :
    v ∈ seen ↔ Relation.ReflTransGen (fun x y => y ∈ next x) a v := by
  induction fuel, s using run.induct next with
  | case1 fuel visited =>
      rw [run] at hrun
      cases hrun
      refine ⟨h.sound v, fun hpath => ?_⟩
      induction hpath with
      | refl => exact h.start
      | tail _ hstep ih => exact h.looked _ ih List.not_mem_nil _ hstep
  | case2 => cases hrun
  | case3 fuel visited w queue ih =>
      rw [run] at hrun
      exact ih h.round hrun

/-- **It ends within a set it cannot leave.** -/
theorem exists_run {within : Finset α} (hclosed : ∀ v ∈ within, ∀ w ∈ next v, w ∈ within)
    {fuel : Nat} {s : Search α} (hvisited : s.visited ⊆ within)
    (hqueue : ∀ v ∈ s.queue, v ∈ s.visited)
    (hfuel : within.card - s.visited.card + s.queue.length ≤ fuel) :
    ∃ seen, run next fuel s = some seen := by
  induction fuel, s using run.induct next with
  | case1 fuel visited =>
      rw [run]
      exact ⟨visited, rfl⟩
  | case2 visited v queue => simp at hfuel
  | case3 fuel visited v queue ih =>
      obtain ⟨hvisited', new, hqueue', -, hnew, hcard⟩ := foldl_see (next v) ⟨visited, queue⟩
      have hv : v ∈ within := hvisited (hqueue v List.mem_cons_self)
      have hsub : ((next v).foldl see ⟨visited, queue⟩).visited ⊆ within := by
        rw [hvisited']
        refine Finset.union_subset hvisited fun w hw => ?_
        exact hclosed v hv w (List.mem_toFinset.mp hw)
      rw [run]
      refine ih hsub (fun w hw => ?_) ?_
      · rw [hvisited']
        rw [hqueue'] at hw
        rcases List.mem_append.mp hw with hw | hw
        · exact Finset.mem_union_left _ (hqueue w (List.mem_cons_of_mem v hw))
        · exact Finset.mem_union_right _ (List.mem_toFinset.mpr (hnew w hw))
      · have hle := Finset.card_le_card hsub
        rw [hcard] at hle ⊢
        rw [hqueue', List.length_append]
        simp only [List.length_cons] at hle hfuel ⊢
        omega

/-- **A search in a finite set that cannot be left sees exactly what can be reached.** -/
theorem run_start {within : Finset α} (hclosed : ∀ v ∈ within, ∀ w ∈ next v, w ∈ within)
    (ha : a ∈ within) {fuel : Nat} (hfuel : within.card ≤ fuel) :
    ∃ seen, run next fuel (.start a) = some seen
      ∧ ∀ v, v ∈ seen ↔ Relation.ReflTransGen (fun x y => y ∈ next x) a v := by
  have hinv : Inv next a (.start a) := inv_start
  have hmeasure : within.card - (Search.start a).visited.card + (Search.start a).queue.length
      ≤ fuel := by
    have hpos : 0 < within.card := Finset.card_pos.mpr ⟨a, ha⟩
    simp only [Search.start, Finset.card_singleton, List.length_singleton]
    omega
  obtain ⟨seen, hseen⟩ :=
    exists_run hclosed (Finset.singleton_subset_iff.mpr ha) hinv.queued hmeasure
  exact ⟨seen, hseen, hinv.mem_run hseen⟩

end Search

end Gsnet.Lib
