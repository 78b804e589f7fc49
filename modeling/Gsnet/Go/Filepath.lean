import Gsnet.Go.Strings

/-!
# path/filepath

`Clean` and `Join` on a system whose separator is the slash. `Clean` is purely
lexical: it walks the elements of a path and keeps those still standing, where
`..` takes back the element before it. Rooted paths have nothing above the root;
other paths keep the `..` that lead out of where they start.
-/

namespace Gsnet.Go

/-- `.` -/
def dot : GoString := [0x2E]

/-- `..` -/
def dotDot : GoString := [0x2E, 0x2E]

/-- One element of a path; the elements standing so far come last first. -/
def cleanStep (rooted : Bool) (stack : List GoString) (elem : GoString) : List GoString :=
  if elem = [] ∨ elem = dot then stack
  else if elem = dotDot then
    match stack with
    | [] => if rooted then [] else [dotDot]
    | top :: rest => if top = dotDot then dotDot :: top :: rest else rest
  else elem :: stack

/-- Whether a path begins at the root. -/
def isAbs (path : GoString) : Bool := path.head? == some 0x2F

/-- The elements `Clean` leaves of a path. -/
def cleanElems (path : GoString) : List GoString :=
  ((split 0x2F path).foldl (cleanStep (isAbs path)) []).reverse

/-- Elements separated by slashes. -/
def joinSlash : List GoString → GoString
  | [] => []
  | [e] => e
  | e :: t => e ++ 0x2F :: joinSlash t

/-- `filepath.Clean`. -/
def clean (path : GoString) : GoString :=
  if isAbs path then 0x2F :: joinSlash (cleanElems path)
  else if cleanElems path = [] then dot
  else joinSlash (cleanElems path)

/-- `filepath.Join`: empty elements at the front are ignored. -/
def join (elems : List GoString) : GoString :=
  match elems.dropWhile (· = []) with
  | [] => []
  | es => clean (joinSlash es)

/-- `filepath.Dir`: all but the last element. -/
def dirname (path : GoString) : GoString := clean (path.rdropWhile (· != 0x2F))

example : clean (str "/etc/gsnet/../vpn//./hosts") = str "/etc/vpn/hosts" := by decide +kernel
example : clean (str "a/../../b/..") = str ".." := by decide +kernel
example : join [str "", str "/../x", str "y"] = str "/x/y" := by decide +kernel

/-! ## Elements -/

theorem split_ne_nil (sep : UInt8) (s : GoString) : split sep s ≠ [] := by
  cases s with
  | nil => simp [split]
  | cons c t =>
      rw [split]
      split
      · simp
      · split <;> simp

theorem split_append_sep (sep : UInt8) (s t : GoString) :
    split sep (s ++ sep :: t) = split sep s ++ split sep t := by
  induction s with
  | nil => simp [split]
  | cons c s ih =>
      rw [List.cons_append, split, split, ih]
      by_cases hc : c = sep
      · simp [hc]
      · rw [if_neg hc, if_neg hc]
        cases h : split sep s with
        | nil => exact absurd h (split_ne_nil sep s)
        | cons p ps => rfl

theorem split_of_notMem {sep : UInt8} {s : GoString} (h : sep ∉ s) : split sep s = [s] := by
  induction s with
  | nil => rfl
  | cons c s ih =>
      have hc : c ≠ sep := fun e => h (by simp [e])
      rw [split, if_neg hc, ih (fun e => h (by simp [e]))]

/-- No element holds a slash. -/
theorem sep_notMem_split {sep : UInt8} {s e : GoString} (h : e ∈ split sep s) : sep ∉ e := by
  induction s generalizing e with
  | nil =>
      rw [split, List.mem_singleton] at h
      rw [h]; simp
  | cons c s ih =>
      rw [split] at h
      split at h
      · rcases List.mem_cons.mp h with rfl | h
        · simp
        · exact ih h
      · rename_i hc
        cases hs : split sep s with
        | nil => exact absurd hs (split_ne_nil sep s)
        | cons p ps =>
            rw [hs] at h ih
            rcases List.mem_cons.mp h with rfl | h
            · intro hm
              rcases List.mem_cons.mp hm with hm | hm
              · exact hc hm.symm
              · exact ih (by simp) hm
            · exact ih (by simp [h])

/-- The elements have no other bytes than the path. -/
theorem mem_of_mem_elem {sep c : UInt8} {s e : GoString} (he : e ∈ split sep s) (h : c ∈ e) :
    c ∈ s := by
  induction s generalizing e with
  | nil =>
      rw [split, List.mem_singleton] at he
      rwa [he] at h
  | cons d s ih =>
      rw [split] at he
      split at he
      · rcases List.mem_cons.mp he with rfl | he
        · cases h
        · exact List.mem_cons_of_mem _ (ih he h)
      · cases hs : split sep s with
        | nil => exact absurd hs (split_ne_nil sep s)
        | cons p ps =>
            rw [hs] at he ih
            rcases List.mem_cons.mp he with rfl | he
            · rcases List.mem_cons.mp h with rfl | h
              · exact List.mem_cons_self
              · exact List.mem_cons_of_mem _ (ih List.mem_cons_self h)
            · exact List.mem_cons_of_mem _ (ih (List.mem_cons_of_mem _ he) h)

end Gsnet.Go
