import Mathlib

/-!
# Go maps

`map[K]V` as a finite map. Go does not fix the order in which `range` visits a
map, so the entries come out as a multiset: a statement about them holds for
every iteration order, and code that folds over them has to show that the order
does not matter before it can even be written.
-/

namespace Gsnet.Go

/-- `map[K]V`. -/
structure GoMap (K V : Type) where
  /-- The finite map behind it. -/
  toFinmap : Finmap (fun _ : K => V)

namespace GoMap

variable {K V : Type}

/-- `make(map[K]V)`. -/
def empty : GoMap K V := ⟨∅⟩

instance : Inhabited (GoMap K V) := ⟨empty⟩

instance [DecidableEq K] [DecidableEq V] : DecidableEq (GoMap K V) := fun a b =>
  decidable_of_iff (a.toFinmap = b.toFinmap) (by cases a; cases b; simp)

/-- The entries, in no particular order. -/
def entries (m : GoMap K V) : Multiset (K × V) :=
  m.toFinmap.entries.map (fun e => (e.1, e.2))

/-- The keys `range m` visits. -/
def keys (m : GoMap K V) : Multiset K := m.entries.map Prod.fst

/-- The values `range m` visits. -/
def values (m : GoMap K V) : Multiset V := m.entries.map Prod.snd

variable [DecidableEq K]

/-- `v, ok := m[k]`. -/
def get? (m : GoMap K V) (k : K) : Option V := m.toFinmap.lookup k

/-- `m[k] = v`. -/
def set (m : GoMap K V) (k : K) (v : V) : GoMap K V := ⟨m.toFinmap.insert k v⟩

/-- `delete(m, k)`. -/
def delete (m : GoMap K V) (k : K) : GoMap K V := ⟨m.toFinmap.erase k⟩

@[simp] theorem get?_empty (k : K) : (empty : GoMap K V).get? k = none :=
  Finmap.lookup_empty k

theorem get?_set (m : GoMap K V) (k k' : K) (v : V) :
    (m.set k v).get? k' = if k' = k then some v else m.get? k' := by
  by_cases h : k' = k
  · subst h; rw [if_pos rfl]; exact Finmap.lookup_insert _
  · rw [if_neg h]; exact Finmap.lookup_insert_of_ne _ h

@[simp] theorem get?_set_self (m : GoMap K V) (k : K) (v : V) : (m.set k v).get? k = some v := by
  rw [get?_set, if_pos rfl]

theorem get?_set_ne (m : GoMap K V) {k k' : K} (v : V) (h : k' ≠ k) :
    (m.set k v).get? k' = m.get? k' := by
  rw [get?_set, if_neg h]

theorem get?_delete (m : GoMap K V) (k k' : K) :
    (m.delete k).get? k' = if k' = k then none else m.get? k' := by
  by_cases h : k' = k
  · subst h; rw [if_pos rfl]; exact Finmap.lookup_erase _ _
  · rw [if_neg h]; exact Finmap.lookup_erase_ne h

/-- Two maps that answer every lookup alike are the same map. -/
theorem ext_get? {m₁ m₂ : GoMap K V} (h : ∀ k, m₁.get? k = m₂.get? k) : m₁ = m₂ := by
  cases m₁; cases m₂
  exact congrArg GoMap.mk (Finmap.ext_lookup h)

theorem set_set (m : GoMap K V) (k : K) (v w : V) : (m.set k v).set k w = m.set k w := by
  refine ext_get? fun k' => ?_
  simp only [get?_set]
  split <;> rfl

/-- To write what is there changes nothing, and only that does. -/
theorem set_eq_self_iff {m : GoMap K V} {k : K} {v : V} : m.set k v = m ↔ m.get? k = some v := by
  constructor
  · intro h
    rw [← h, get?_set_self]
  · intro h
    refine ext_get? fun k' => ?_
    rw [get?_set]
    split
    · rename_i hk
      rw [hk, h]
    · rfl

theorem delete_comm (m : GoMap K V) (a b : K) : (m.delete a).delete b = (m.delete b).delete a := by
  refine ext_get? (fun k => ?_)
  simp only [get?_delete]
  by_cases ha : k = a
  · simp [ha]
  · simp [ha]

theorem mem_entries {m : GoMap K V} {k : K} {v : V} :
    (k, v) ∈ m.entries ↔ m.get? k = some v := by
  unfold entries get?
  rw [Finmap.lookup_eq_some_iff]
  simp only [Multiset.mem_map, Prod.mk.injEq]
  constructor
  · rintro ⟨⟨k', v'⟩, hmem, rfl, rfl⟩
    exact hmem
  · intro h
    exact ⟨⟨k, v⟩, h, rfl, rfl⟩

theorem mem_values {m : GoMap K V} {v : V} : v ∈ m.values ↔ ∃ k, m.get? k = some v := by
  unfold values
  constructor
  · intro h
    obtain ⟨⟨k, v'⟩, hmem, rfl⟩ := Multiset.mem_map.mp h
    exact ⟨k, mem_entries.mp hmem⟩
  · rintro ⟨k, h⟩
    exact Multiset.mem_map.mpr ⟨(k, v), mem_entries.mpr h, rfl⟩

theorem mem_keys {m : GoMap K V} {k : K} : k ∈ m.keys ↔ m.get? k ≠ none := by
  rw [Option.ne_none_iff_exists', keys, Multiset.mem_map]
  constructor
  · rintro ⟨⟨k', v⟩, hkv, rfl⟩
    exact ⟨v, mem_entries.mp hkv⟩
  · rintro ⟨v, hv⟩
    exact ⟨(k, v), mem_entries.mpr hv, rfl⟩

omit [DecidableEq K] in
/-- `range` visits every key once. -/
theorem nodup_keys (m : GoMap K V) : m.keys.Nodup := by
  have h : m.keys = m.toFinmap.entries.keys := by
    unfold keys entries Multiset.keys
    rw [Multiset.map_map]
    rfl
  rw [h, Multiset.nodup_keys]
  exact m.toFinmap.nodupKeys

omit [DecidableEq K] in
theorem nodup_entries (m : GoMap K V) : m.entries.Nodup :=
  Multiset.Nodup.of_map _ (nodup_keys m)

end GoMap

end Gsnet.Go
