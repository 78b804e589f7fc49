import Gsnet.Go.Map

/-!
# Last-writer-wins tables

A replica sees messages that carry a key and a timestamp, and keeps for every
key the newest timestamp it has let through. A message gets through when it is
strictly newer than that. This module is about the list of messages that get
through: it is a sublist, its timestamps rise along every key, and the newest
message of a key is always on it, whatever the order of arrival.

The second half is about registers, parts of a state that every message either
overwrites or leaves alone: after a run a register holds what the last message
to write it wrote.
-/

namespace Gsnet.Lib

open Go

variable {K T M : Type} [DecidableEq K] [LinearOrder T]

/-- `t` is newer than whatever the table records for `k`. -/
def Newer (seen : GoMap K T) (k : K) (t : T) : Prop :=
  ∀ prev, seen.get? k = some prev → prev < t

instance (seen : GoMap K T) (k : K) (t : T) : Decidable (Newer seen k t) :=
  match h : seen.get? k with
  | none => isTrue (by intro prev hp; rw [h] at hp; cases hp)
  | some prev =>
    decidable_of_iff (prev < t)
      ⟨fun hlt p hp => by rw [h] at hp; cases hp; exact hlt, fun hn => hn prev h⟩

theorem newer_empty (k : K) (t : T) : Newer (GoMap.empty : GoMap K T) k t := by
  intro prev hp
  simp at hp

theorem newer_set (seen : GoMap K T) (k k' : K) (t t' : T) :
    Newer (seen.set k' t') k t ↔ if k = k' then t' < t else Newer seen k t := by
  unfold Newer
  by_cases hk : k = k'
  · subst hk; simp
  · simp [GoMap.get?_set_ne _ _ hk, hk]

section Accepted

variable (key : M → K) (ts : M → T)

/-- The messages that get through, in order of arrival. -/
def accepted : GoMap K T → List M → List M
  | _, [] => []
  | seen, m :: ms =>
    if Newer seen (key m) (ts m) then m :: accepted (seen.set (key m) (ts m)) ms
    else accepted seen ms

/-- The table after them. -/
def tableAfter : GoMap K T → List M → GoMap K T
  | seen, [] => seen
  | seen, m :: ms =>
    if Newer seen (key m) (ts m) then tableAfter (seen.set (key m) (ts m)) ms
    else tableAfter seen ms

variable {key ts}

/-- A message no other message of its key is as new as. -/
def Newest (key : M → K) (ts : M → T) (l : List M) (m : M) : Prop :=
  m ∈ l ∧ ∀ m' ∈ l, key m' = key m → m' ≠ m → ts m' < ts m

theorem accepted_sublist (seen : GoMap K T) (l : List M) :
    (accepted key ts seen l).Sublist l := by
  induction l generalizing seen with
  | nil => exact List.Sublist.slnil
  | cons m ms ih =>
      rw [accepted]
      split
      · exact (ih _).cons_cons m
      · exact (ih _).cons m

theorem mem_of_accepted {seen : GoMap K T} {l : List M} {m : M}
    (h : m ∈ accepted key ts seen l) : m ∈ l :=
  (accepted_sublist seen l).subset h

theorem accepted_append (seen : GoMap K T) (l₁ l₂ : List M) :
    accepted key ts seen (l₁ ++ l₂)
      = accepted key ts seen l₁ ++ accepted key ts (tableAfter key ts seen l₁) l₂ := by
  induction l₁ generalizing seen with
  | nil => rfl
  | cons m ms ih =>
      simp only [List.cons_append, accepted, tableAfter]
      split
      · rw [ih, List.cons_append]
      · exact ih seen

/--
**What the table lets through after a run**: what it let through before, unless
a message of the run was at least as new.
-/
theorem newer_tableAfter (seen : GoMap K T) (l : List M) (k : K) (t : T) :
    Newer (tableAfter key ts seen l) k t
      ↔ Newer seen k t ∧ ∀ m ∈ l, key m = k → ts m < t := by
  induction l generalizing seen with
  | nil => simp [tableAfter]
  | cons m ms ih =>
      rw [tableAfter]
      split
      · rename_i hnew
        rw [ih, newer_set]
        by_cases hk : k = key m
        · subst hk
          simp only [if_pos, List.forall_mem_cons, true_implies]
          refine ⟨fun h => ⟨fun prev hp => lt_trans (hnew prev hp) h.1, h⟩, fun h => h.2⟩
        · simp only [if_neg hk, List.forall_mem_cons]
          refine ⟨fun h => ⟨h.1, fun he => absurd he.symm hk, h.2⟩, fun h => ⟨h.1, h.2.2⟩⟩
      · rename_i hold
        rw [ih]
        simp only [List.forall_mem_cons]
        refine ⟨fun h => ⟨h.1, ?_, h.2⟩, fun h => ⟨h.1, h.2.2⟩⟩
        -- the message was dropped because the table already held something as new
        rintro rfl
        unfold Newer at hold
        push Not at hold
        obtain ⟨prev, hp, hle⟩ := hold
        exact lt_of_le_of_lt hle (h.1 prev hp)

theorem accepted_newer {seen : GoMap K T} {l : List M} {m : M}
    (h : m ∈ accepted key ts seen l) : Newer seen (key m) (ts m) := by
  induction l generalizing seen with
  | nil => simp [accepted] at h
  | cons a ms ih =>
      rw [accepted] at h
      split at h
      · rename_i hnew
        rcases List.mem_cons.mp h with rfl | h'
        · exact hnew
        · have := (newer_set seen (key m) (key a) (ts m) (ts a)).mp (ih h')
          split at this
          · rename_i hk
            intro prev hp
            exact lt_trans (hnew prev (hk ▸ hp)) this
          · exact this
      · exact ih h

/-- **Along every key the timestamps that get through rise.** -/
theorem accepted_pairwise (seen : GoMap K T) (l : List M) :
    (accepted key ts seen l).Pairwise (fun a b => key b = key a → ts a < ts b) := by
  induction l generalizing seen with
  | nil => exact List.Pairwise.nil
  | cons m ms ih =>
      rw [accepted]
      split
      · refine List.Pairwise.cons ?_ (ih _)
        intro b hb hk
        have := (newer_set seen (key b) (key m) (ts b) (ts m)).mp (accepted_newer hb)
        rwa [if_pos hk] at this
      · exact ih _

theorem accepted_lt_of_before {seen : GoMap K T} {l pre post : List M} {e f : M}
    (hsplit : accepted key ts seen l = pre ++ e :: post) (hf : f ∈ pre) (hk : key e = key f) :
    ts f < ts e := by
  have hpw : (accepted key ts seen l).Pairwise (fun a b => key b = key a → ts a < ts b) :=
    accepted_pairwise seen l
  rw [hsplit] at hpw
  exact (List.pairwise_append.mp hpw).2.2 f hf e List.mem_cons_self hk

/-- If the newest message of a key comes first, it alone can get through. -/
theorem accepted_newest_first {seen : GoMap K T} {n m : M} {ms : List M}
    (hle : ∀ m ∈ ms, key m = key n ∧ ts m ≤ ts n) (hm : m ∈ accepted key ts seen (n :: ms)) :
    m = n := by
  rw [accepted] at hm
  split at hm
  · rcases List.mem_cons.mp hm with rfl | hm
    · rfl
    · obtain ⟨hk, hts⟩ := hle m (mem_of_accepted hm)
      have hlt := accepted_newer hm
      rw [newer_set, if_pos hk] at hlt
      exact absurd hlt (not_lt.mpr hts)
  · rename_i hold
    -- a table that refuses the newest refuses the rest
    obtain ⟨hk, hts⟩ := hle m (mem_of_accepted hm)
    have hnew := accepted_newer hm
    rw [hk] at hnew
    exact absurd (fun prev hp => lt_of_lt_of_le (hnew prev hp) hts) hold

/-- A message at the end of a run gets through when nothing of its key was as new. -/
theorem mem_accepted_append {seen : GoMap K T} {l₁ l₂ : List M} {m : M}
    (h : Newer seen (key m) (ts m)) (hl : ∀ m' ∈ l₁, key m' = key m → ts m' < ts m) :
    m ∈ accepted key ts seen (l₁ ++ m :: l₂) := by
  rw [accepted_append, accepted, if_pos ((newer_tableAfter seen l₁ _ _).mpr ⟨h, hl⟩)]
  simp

/-- **The newest message of a key always gets through.** -/
theorem newest_accepted {seen : GoMap K T} {l : List M} {m : M} (hm : Newest key ts l m)
    (h : Newer seen (key m) (ts m)) : m ∈ accepted key ts seen l := by
  classical
  -- look at its first occurrence: everything of its key before is older
  obtain ⟨l₁, l₂, rfl, hnot⟩ := List.eq_append_cons_of_mem hm.1
  refine mem_accepted_append h (fun m' hm' hk => hm.2 m' (by simp [hm']) hk ?_)
  rintro rfl
  exact hnot hm'

/-- After the newest message of a key, nothing of that key gets through. -/
theorem accepted_newest_split {seen : GoMap K T} {l : List M} {n : M} (hn : Newest key ts l n)
    (h : Newer seen (key n) (ts n)) :
    ∃ pre post, accepted key ts seen l = pre ++ n :: post ∧ ∀ m ∈ post, key m ≠ key n := by
  obtain ⟨pre, post, hsplit⟩ := List.append_of_mem (newest_accepted hn h)
  refine ⟨pre, post, hsplit, fun m hm hk => ?_⟩
  have hpw : (accepted key ts seen l).Pairwise (fun a b => key b = key a → ts a < ts b) :=
    accepted_pairwise seen l
  rw [hsplit] at hpw
  have hlt : ts n < ts m :=
    (List.pairwise_cons.mp (List.pairwise_append.mp hpw).2.1).1 m hm hk
  have hml : m ∈ l := by
    refine mem_of_accepted (?_ : m ∈ accepted key ts seen l)
    rw [hsplit]; simp [hm]
  by_cases hmn : m = n
  · rw [hmn] at hlt; exact lt_irrefl _ hlt
  · exact lt_asymm hlt (hn.2 m hml hk hmn)

end Accepted

/-! ## Registers -/

section Registers

variable {S O : Type} {step : S → M → S} {obs : S → O} {I : S → Prop} {write : M → Option O}

/--
**A register holds what the last message to write it wrote.** `I` is an
invariant of the state that the effect of a message may rely on.
-/
theorem register_foldl {l : List M} {s : S} (hs : I s) (hI : ∀ s m, I s → I (step s m))
    (hstep : ∀ s m, I s → obs (step s m) = (write m).getD (obs s)) :
    obs (l.foldl step s) = (l.filterMap write).getLast?.getD (obs s) := by
  have hrun : ∀ l' : List M, I (l'.foldl step s) := by
    intro l'
    induction l' using List.reverseRecOn with
    | nil => exact hs
    | append_singleton l' m ih => rw [List.foldl_append]; exact hI _ m ih
  induction l using List.reverseRecOn with
  | nil => rfl
  | append_singleton l m ih =>
      rw [List.foldl_append, List.foldl_cons, List.foldl_nil, List.filterMap_append,
        hstep _ m (hrun l), ih]
      cases hw : write m with
      | none => simp [hw]
      | some v => simp [hw]

/-- What was last written was written by a message after which none writes. -/
theorem getLast?_filterMap {l : List M} {v : O} (h : (l.filterMap write).getLast? = some v) :
    ∃ pre m post, l = pre ++ m :: post ∧ write m = some v ∧ ∀ m' ∈ post, write m' = none := by
  induction l using List.reverseRecOn with
  | nil => simp at h
  | append_singleton l m ih =>
      rw [List.filterMap_append] at h
      cases hw : write m with
      | some u =>
          have hu : u = v := by simpa [hw] using h
          exact ⟨l, m, [], rfl, by rw [hw, hu], by simp⟩
      | none =>
          have hl : (l.filterMap write).getLast? = some v := by simpa [hw] using h
          obtain ⟨pre, m', post, rfl, hm', hpost⟩ := ih hl
          refine ⟨pre, m', post ++ [m], by simp, hm', fun a ha => ?_⟩
          rcases List.mem_append.mp ha with ha | ha
          · exact hpost a ha
          · rw [List.mem_singleton.mp ha, hw]

variable {key : M → K} {ts : M → T}

/-- What no message writes was not written. -/
theorem last_untouched {seen : GoMap K T} {l : List M} (hno : ∀ m ∈ l, write m = none) :
    ((accepted key ts seen l).filterMap write).getLast? = none := by
  have hnil : (accepted key ts seen l).filterMap write = [] := by
    refine List.filterMap_eq_nil_iff.mpr (fun m hm => ?_)
    exact hno m (mem_of_accepted hm)
  rw [hnil]; rfl

/--
**What is written under one key only was last written by the newest message of
that key**, in whatever order the messages came.
-/
theorem last_newest {seen : GoMap K T} {l : List M} {n : M} {v : O} (hn : Newest key ts l n)
    (hnew : Newer seen (key n) (ts n)) (hw : write n = some v)
    (honly : ∀ m ∈ l, write m ≠ none → key m = key n) :
    ((accepted key ts seen l).filterMap write).getLast? = some v := by
  obtain ⟨pre, post, hsplit, hpost⟩ := accepted_newest_split hn hnew
  have hnil : post.filterMap write = [] := by
    refine List.filterMap_eq_nil_iff.mpr (fun m hm => ?_)
    by_contra hne
    have hml : m ∈ l := by
      refine mem_of_accepted (?_ : m ∈ accepted key ts seen l)
      rw [hsplit]; simp [hm]
    exact hpost m hm (honly m hml hne)
  rw [hsplit, List.filterMap_append, List.filterMap_cons_some hw, hnil]
  simp

end Registers

end Gsnet.Lib
