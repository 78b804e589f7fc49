import Gsnet.Go.Filepath
import Gsnet.Go.Map

/-!
# os

The file system as far as the program uses it: a tree of directories and regular
files, each at a location given by the names that lead to it from the root. There
are no symbolic links.

A call fails for what stands in the tree, and then changes nothing. A write can fail
for other reasons as well: the system can refuse to open or to create the file, and it
can break off the write, when the file has been emptied and holds what was written till
then. Where it does is part of the file system, so that every statement about a file
system is about all of that.
-/

namespace Gsnet.Go

/-- The names from the root to a file. -/
abbrev Location := List GoString

inductive Node where
  | dir
  | file (content : GoString)
  deriving DecidableEq, Repr

/-- The errors `os.IsNotExist` tells apart. -/
inductive OsError where
  | notExist
  | other
  deriving DecidableEq, Repr

/-- `os.DirEntry`. -/
structure DirEntry where
  name : GoString
  isDir : Bool
  deriving DecidableEq, Repr

/-- The order of strings: byte by byte. -/
def BytesLE (a b : GoString) : Prop := a.map UInt8.toNat ≤ b.map UInt8.toNat

instance : DecidableRel BytesLE := fun a b =>
  inferInstanceAs (Decidable (a.map UInt8.toNat ≤ b.map UInt8.toNat))

instance : IsTrans GoString BytesLE := ⟨fun _ _ _ h₁ h₂ => le_trans (α := List Nat) h₁ h₂⟩

instance : Std.Total BytesLE := ⟨fun a b => le_total (a.map UInt8.toNat) (b.map UInt8.toNat)⟩

instance : Std.Antisymm BytesLE := ⟨fun _ _ h₁ h₂ =>
  List.map_injective_iff.mpr (fun _ _ => UInt8.toNat_inj.mp) (le_antisymm (α := List Nat) h₁ h₂)⟩

/-- What the system does to a write that the tree allows. -/
inductive Fault where
  /-- The file is not opened: there is no permission or no space, or the name is too long. -/
  | refused
  /-- The write ends with an error after so many bytes. -/
  | brokenOff (written : Nat)
  deriving DecidableEq, Repr

structure FileSystem where
  /-- Where paths start that do not start at the root. -/
  cwd : Location
  nodes : GoMap Location Node
  /-- Where the system does not carry out writes. No call shows it beforehand. -/
  faults : GoMap Location Fault := GoMap.empty
  deriving DecidableEq

/-- Where a path leads from a directory. Nothing is above the root. -/
def walk (base : Location) (path : GoString) : Location :=
  ((split 0x2F path).foldl (cleanStep true) base.reverse).reverse

namespace FileSystem

variable (fs : FileSystem)

/-- The location a path names. -/
def locate (path : GoString) : Location := walk (if isAbs path then [] else fs.cwd) path

def isDir (loc : Location) : Bool := loc = [] || fs.nodes.get? loc == some .dir

/-- Why nothing is found at a location: there is no such thing, or a file stands on the way. -/
def lookupError (loc : Location) : OsError :=
  if loc.inits.any fun l => (fs.nodes.get? l).any (· != .dir) then .other else .notExist

/-- `os.ReadFile`. A path with a NUL names nothing. -/
def readFile (path : GoString) : Except OsError GoString :=
  let loc := fs.locate path
  if 0 ∈ path ∨ fs.isDir loc = true then .error .other
  else match fs.nodes.get? loc with
    | some (.file content) => .ok content
    | _ => .error (fs.lookupError loc)

/-- `os.Stat`: whether what stands at a path is a directory. -/
def stat (path : GoString) : Except OsError Bool :=
  let loc := fs.locate path
  if 0 ∈ path then .error .other
  else if fs.isDir loc = true then .ok true
  else match fs.nodes.get? loc with
    | some _ => .ok false
    | none => .error (fs.lookupError loc)

/-- `os.ReadDir`: what a directory holds, by name. -/
def readDir (path : GoString) : Except OsError (List DirEntry) :=
  let loc := fs.locate path
  if 0 ∈ path then .error .other
  else if fs.isDir loc = false then .error (fs.lookupError loc)
  else
    let names := (fs.nodes.keys.filter fun l => l ≠ [] ∧ l.dropLast = loc).map (·.getLastD [])
    .ok ((names.sort BytesLE).map fun n => ⟨n, fs.isDir (loc ++ [n])⟩)

/-- A file with this content is put at a place. -/
def put (loc : Location) (content : GoString) : FileSystem :=
  { fs with nodes := fs.nodes.set loc (.file content) }

/-- After how many bytes the write of a file breaks off, if it does. -/
def brokenOff (loc : Location) : Option Nat :=
  match fs.faults.get? loc with
  | some (.brokenOff written) => some written
  | _ => none

/-- `f.Write` to a file that was just opened and is empty. -/
def fill (loc : Location) (content : GoString) : Except FileSystem FileSystem :=
  match fs.brokenOff loc with
  | none => .ok (fs.put loc content)
  | some written => .error (fs.put loc (content.take written))

/-- The file can be opened to be written: it is no directory, and its directory is there. -/
def Opens (path : GoString) : Prop :=
  0 ∉ path ∧ fs.isDir (fs.locate path) = false ∧ fs.isDir (fs.locate path).dropLast = true
    ∧ fs.faults.get? (fs.locate path) ≠ some .refused

instance (path : GoString) : Decidable (fs.Opens path) := inferInstanceAs (Decidable (_ ∧ _))

/-- `os.WriteFile`: opening the file empties it, and what is written is not taken back. -/
def writeFile (path content : GoString) : Except FileSystem FileSystem :=
  if fs.Opens path then fs.fill (fs.locate path) content else .error fs

/-- The file can be opened with `O_CREATE|O_EXCL`: nothing is there yet. -/
def Vacant (path : GoString) : Prop :=
  0 ∉ path ∧ fs.locate path ≠ [] ∧ fs.nodes.get? (fs.locate path) = none
    ∧ fs.isDir (fs.locate path).dropLast = true
    ∧ fs.faults.get? (fs.locate path) ≠ some .refused

instance (path : GoString) : Decidable (fs.Vacant path) := inferInstanceAs (Decidable (_ ∧ _))

/-- `os.Remove`: a file, or a directory that is empty. -/
def remove (path : GoString) : Option FileSystem :=
  let loc := fs.locate path
  if 0 ∈ path then none
  else match fs.nodes.get? loc with
    | none => none
    | some (.file _) => some { fs with nodes := fs.nodes.delete loc }
    | some .dir =>
      if fs.nodes.keys.countP (fun l => l ≠ [] ∧ l.dropLast = loc) = 0 then
        some { fs with nodes := fs.nodes.delete loc }
      else none

/-- The directories from the root to a place, without the root. -/
def steps (loc : Location) : List Location := loc.inits.tail

/-- One directory on the way of `MkdirAll`. -/
def mkdir (loc : Location) : Option FileSystem :=
  match fs.nodes.get? loc with
  | none => some { fs with nodes := fs.nodes.set loc .dir }
  | some .dir => some fs
  | some (.file _) => none

/-- `os.MkdirAll`. -/
def mkdirAll (path : GoString) : Option FileSystem :=
  if 0 ∈ path then none else (steps (fs.locate path)).foldlM mkdir fs

/-- A tree with these files and the directories they need. -/
def ofFiles (files : List (Location × GoString)) : FileSystem where
  cwd := []
  nodes := files.foldl (fun m f =>
    (f.1.dropLast.inits.tail.foldl (·.set · .dir) m).set f.1 (.file f.2)) GoMap.empty

end FileSystem

/-! ## Cleaned paths lead where they led -/

/-- An element that names something, or leads up. -/
def Standing (e : GoString) : Prop := e ≠ [] ∧ e ≠ dot

theorem cleanStep_skip {e : GoString} (h : ¬ Standing e) (rooted : Bool) (stack : List GoString) :
    cleanStep rooted stack e = stack := by
  unfold cleanStep
  rw [if_pos]
  by_contra hn
  exact h (not_or.mp hn)

theorem cleanStep_name {e : GoString} (h : Standing e) (hd : e ≠ dotDot) (rooted : Bool)
    (stack : List GoString) : cleanStep rooted stack e = e :: stack := by
  unfold cleanStep
  rw [if_neg (not_or.mpr h), if_neg hd]

theorem cleanStep_dotDot (rooted : Bool) (stack : List GoString) :
    cleanStep rooted stack dotDot = match stack with
      | [] => if rooted then [] else [dotDot]
      | top :: rest => if top = dotDot then dotDot :: top :: rest else rest := by
  unfold cleanStep
  refine (if_neg (by decide)).trans ((if_pos rfl).trans ?_)
  cases stack <;> rfl

/-- What a step leaves was there before, or is the element and stands. -/
theorem mem_cleanStep {rooted : Bool} {stack : List GoString} {e x : GoString}
    (h : x ∈ cleanStep rooted stack e) : (x = e ∧ Standing e) ∨ x ∈ stack := by
  by_cases he : Standing e
  · by_cases hd : e = dotDot
    · subst hd
      rw [cleanStep_dotDot] at h
      cases stack with
      | nil =>
          cases rooted with
          | true => cases h
          | false => exact .inl ⟨List.mem_singleton.mp h, he⟩
      | cons top rest =>
          simp only at h
          split at h
          · rcases List.mem_cons.mp h with rfl | h
            · exact .inl ⟨rfl, he⟩
            · exact .inr h
          · exact .inr (List.mem_cons_of_mem _ h)
    · rw [cleanStep_name he hd] at h
      rcases List.mem_cons.mp h with rfl | h
      · exact .inl ⟨rfl, he⟩
      · exact .inr h
  · rw [cleanStep_skip he] at h
    exact .inr h

theorem mem_foldl_cleanStep {rooted : Bool} {es : List GoString} {x : GoString}
    (h : x ∈ es.foldl (cleanStep rooted) []) : x ∈ es ∧ Standing x := by
  induction es using List.reverseRecOn with
  | nil => cases h
  | append_singleton es e ih =>
      rw [List.foldl_append, List.foldl_cons, List.foldl_nil] at h
      rcases mem_cleanStep h with ⟨rfl, he⟩ | h
      · exact ⟨by simp, he⟩
      · exact ⟨List.mem_append_left _ (ih h).1, (ih h).2⟩

theorem mem_cleanElems {path e : GoString} (h : e ∈ cleanElems path) :
    Standing e ∧ (0x2F : UInt8) ∉ e := by
  obtain ⟨hmem, hstand⟩ := mem_foldl_cleanStep (List.mem_reverse.mp h)
  exact ⟨hstand, sep_notMem_split hmem⟩

/-- Walking the elements that stand and then one more is walking the ones that stand after it. -/
theorem walk_cleanStep {rooted : Bool} {base stack : List GoString} (hb : rooted = true → base = [])
    (hs : ∀ e ∈ stack, Standing e) (e : GoString) :
    (cleanStep rooted stack e).reverse.foldl (cleanStep true) base
      = cleanStep true (stack.reverse.foldl (cleanStep true) base) e := by
  by_cases he : Standing e
  · by_cases hd : e = dotDot
    · subst hd
      rw [cleanStep_dotDot]
      cases stack with
      | nil =>
          cases rooted with
          | true => rw [hb rfl]; rfl
          | false => rfl
      | cons top rest =>
          by_cases ht : top = dotDot
          · simp [ht]
          · -- the element before is taken back, here and there
            simp only [if_neg ht, List.reverse_cons, List.foldl_append, List.foldl_cons,
              List.foldl_nil]
            rw [cleanStep_name (hs top (by simp)) ht, cleanStep_dotDot]
            simp only [if_neg ht]
    · rw [cleanStep_name he hd]
      simp
  · rw [cleanStep_skip he, cleanStep_skip he]

theorem walk_foldl_cleanStep {rooted : Bool} {base : List GoString}
    (hb : rooted = true → base = []) (es : List GoString) :
    (es.foldl (cleanStep rooted) []).reverse.foldl (cleanStep true) base
      = es.foldl (cleanStep true) base := by
  induction es using List.reverseRecOn with
  | nil => rfl
  | append_singleton es e ih =>
      have hs : ∀ x ∈ es.foldl (cleanStep rooted) [], Standing x :=
        fun x hx => (mem_foldl_cleanStep hx).2
      rw [List.foldl_append, List.foldl_append, List.foldl_cons, List.foldl_nil, List.foldl_cons,
        List.foldl_nil, walk_cleanStep hb hs, ih]

theorem split_joinSlash {es : List GoString} (hne : es ≠ []) (h : ∀ e ∈ es, (0x2F : UInt8) ∉ e) :
    split 0x2F (joinSlash es) = es := by
  induction es with
  | nil => exact absurd rfl hne
  | cons e es ih =>
      cases es with
      | nil => exact split_of_notMem (h e (by simp))
      | cons f es =>
          rw [joinSlash, split_append_sep, split_of_notMem (h e (by simp)),
            ih (by simp) (fun x hx => h x (by simp [hx]))]
          · rfl
          · simp

theorem foldl_split_joinSlash {es : List GoString} (h : ∀ e ∈ es, (0x2F : UInt8) ∉ e)
    (base : List GoString) :
    (split 0x2F (joinSlash es)).foldl (cleanStep true) base = es.foldl (cleanStep true) base := by
  cases es with
  | nil => exact cleanStep_skip (fun hs => hs.1 rfl) true base
  | cons e es => rw [split_joinSlash (by simp) h]

theorem isAbs_append {dir : GoString} (hd : dir ≠ []) (more : GoString) :
    isAbs (dir ++ more) = isAbs dir := by
  cases dir with
  | nil => exact absurd rfl hd
  | cons c dir => rfl

theorem isAbs_clean (path : GoString) : isAbs (clean path) = isAbs path := by
  unfold clean
  split
  · rename_i h
    rw [h]; rfl
  · rename_i h
    rw [Bool.not_eq_true] at h
    rw [h]
    split
    · decide
    · -- the first element is not empty and holds no slash
      cases hes : cleanElems path with
      | nil => contradiction
      | cons e es =>
          have hmem : e ∈ cleanElems path := by simp [hes]
          obtain ⟨hstand, hslash⟩ := mem_cleanElems hmem
          cases e with
          | nil => exact absurd rfl hstand.1
          | cons c e =>
              have hc : c ≠ 0x2F := fun hc => hslash (by simp [hc])
              cases es <;> simp [joinSlash, isAbs, hc]

theorem clean_ne_nil (path : GoString) : clean path ≠ [] := by
  unfold clean
  split
  · simp
  · split
    · decide
    · cases hes : cleanElems path with
      | nil => contradiction
      | cons e es =>
          have hmem : e ∈ cleanElems path := by simp [hes]
          have hstand := (mem_cleanElems hmem).1
          cases es <;> simp [joinSlash, hstand.1]

/-- **A cleaned path leads where the path led.** -/
theorem FileSystem.locate_clean (fs : FileSystem) (path : GoString) :
    fs.locate (clean path) = fs.locate path := by
  unfold locate walk
  rw [isAbs_clean]
  congr 1
  have hslash : ∀ e ∈ cleanElems path, (0x2F : UInt8) ∉ e := fun e he => (mem_cleanElems he).2
  -- walking what stands of the path, from where the path starts
  have hwalk : ∀ base : List GoString, (isAbs path = true → base = []) →
      (cleanElems path).foldl (cleanStep true) base
        = (split 0x2F path).foldl (cleanStep true) base :=
    fun base hb => walk_foldl_cleanStep hb (split 0x2F path)
  unfold clean
  cases habs : isAbs path with
  | true =>
      have hsplit : split 0x2F (0x2F :: joinSlash (cleanElems path))
          = [] :: split 0x2F (joinSlash (cleanElems path)) := split_append_sep 0x2F [] _
      rw [if_pos rfl, if_pos rfl, hsplit, List.foldl_cons, cleanStep_skip (fun hs => hs.1 rfl),
        foldl_split_joinSlash hslash]
      exact hwalk [] (fun _ => rfl)
  | false =>
      rw [if_neg (by simp), if_neg (by simp)]
      refine Eq.trans ?_ (hwalk fs.cwd.reverse (by simp [habs]))
      split
      · rename_i hnil
        rw [hnil]; exact cleanStep_skip (fun hs => hs.2 rfl) true _
      · exact foldl_split_joinSlash hslash _

theorem join_pair {dir : GoString} (h : dir ≠ []) (name : GoString) :
    join [dir, name] = clean (dir ++ 0x2F :: name) := by
  unfold join
  rw [List.dropWhile_cons_of_neg (by simpa using h)]
  rfl

theorem join_pair_ne_nil {dir : GoString} (h : dir ≠ []) (name : GoString) :
    join [dir, name] ≠ [] := by
  rw [join_pair h]
  exact clean_ne_nil _

/-- **A joined path leads where the name leads from the directory**, which need not be below it. -/
theorem FileSystem.locate_join (fs : FileSystem) {dir : GoString} (h : dir ≠ []) (name : GoString) :
    fs.locate (join [dir, name]) = walk (fs.locate dir) name := by
  rw [join_pair h, locate_clean]
  unfold locate walk
  rw [isAbs_append h, split_append_sep, List.foldl_append, List.reverse_reverse]

/-! ## Names -/

/-- A name that a directory can hold. -/
structure PlainName (name : GoString) : Prop where
  standing : Standing name
  not_dotDot : name ≠ dotDot
  no_slash : (0x2F : UInt8) ∉ name

instance (name : GoString) : Decidable (PlainName name) :=
  decidable_of_iff ((name ≠ [] ∧ name ≠ dot) ∧ name ≠ dotDot ∧ (0x2F : UInt8) ∉ name)
    ⟨fun h => ⟨h.1, h.2.1, h.2.2⟩, fun h => ⟨h.standing, h.not_dotDot, h.no_slash⟩⟩

theorem walk_plainName {name : GoString} (h : PlainName name) (base : Location) :
    walk base name = base ++ [name] := by
  unfold walk
  rw [split_of_notMem h.no_slash, List.foldl_cons, List.foldl_nil,
    cleanStep_name h.standing h.not_dotDot, List.reverse_cons, List.reverse_reverse]

/-- After a walk some of its elements lie on what is left of the base. -/
theorem foldl_cleanStep_stack (es base : List GoString) :
    ∃ top k, es.foldl (cleanStep true) base = top ++ base.drop k ∧ ∀ e ∈ top, e ∈ es := by
  induction es using List.reverseRecOn with
  | nil => exact ⟨[], 0, rfl, by simp⟩
  | append_singleton es e ih =>
      obtain ⟨top, k, hstack, htop⟩ := ih
      have hkeep : ∀ x ∈ top, x ∈ es ++ [e] := fun x hx => List.mem_append_left _ (htop x hx)
      have hpush : ∀ x ∈ e :: top, x ∈ es ++ [e] := by
        intro x hx
        rcases List.mem_cons.mp hx with rfl | hx
        · simp
        · exact hkeep x hx
      rw [List.foldl_append, List.foldl_cons, List.foldl_nil, hstack]
      by_cases he : Standing e
      · by_cases hd : e = dotDot
        · subst hd
          rw [cleanStep_dotDot]
          cases top with
          | cons t top =>
              by_cases ht : t = dotDot
              · exact ⟨dotDot :: t :: top, k, by simp [ht], hpush⟩
              · exact ⟨top, k, by simp [ht], fun x hx => hkeep x (List.mem_cons_of_mem _ hx)⟩
          | nil =>
              cases hrest : base.drop k with
              | nil => exact ⟨[], k, by simp [hrest], by simp⟩
              | cons t rest =>
                  by_cases ht : t = dotDot
                  · exact ⟨[dotDot], k, by simp [hrest, ht], hpush⟩
                  · refine ⟨[], k + 1, ?_, by simp⟩
                    rw [← List.tail_drop, hrest]
                    simp [ht]
        · rw [cleanStep_name he hd]
          exact ⟨e :: top, k, rfl, hpush⟩
      · rw [cleanStep_skip he]
        exact ⟨top, k, rfl, hkeep⟩

/-- **A name leads to the entry of that name** exactly if a directory can hold it. -/
theorem walk_eq_append_iff {base : Location} {name : GoString}
    (hbase : base.getLast? ≠ some dotDot) : walk base name = base ++ [name] ↔ PlainName name := by
  refine ⟨fun h => ?_, fun h => walk_plainName h base⟩
  have hrev : (split 0x2F name).foldl (cleanStep true) base.reverse = name :: base.reverse := by
    have h' := congrArg List.reverse h
    rw [walk, List.reverse_reverse, List.reverse_append] at h'
    exact h'
  have hslash : (0x2F : UInt8) ∉ name := by
    obtain ⟨top, k, hstack, htop⟩ := foldl_cleanStep_stack (split 0x2F name) base.reverse
    rw [hrev] at hstack
    cases top with
    | nil =>
        -- then nothing new lies on the base
        have hlen := congrArg List.length hstack
        simp only [List.length_cons, List.nil_append, List.length_drop] at hlen
        omega
    | cons t top =>
        obtain ⟨rfl, -⟩ := List.cons.inj hstack
        exact sep_notMem_split (htop name (by simp))
  rw [split_of_notMem hslash, List.foldl_cons, List.foldl_nil] at hrev
  have hstand : Standing name := by
    by_contra hn
    rw [cleanStep_skip hn] at hrev
    exact absurd (congrArg List.length hrev) (by simp)
  refine ⟨hstand, ?_, hslash⟩
  rintro rfl
  rw [cleanStep_dotDot] at hrev
  cases hb : base.reverse with
  | nil =>
      rw [hb] at hrev
      cases hrev
  | cons t rest =>
      have ht : t ≠ dotDot := by
        rintro rfl
        rw [← List.head?_reverse, hb] at hbase
        exact hbase rfl
      simp only [hb, if_neg ht] at hrev
      exact absurd (congrArg List.length hrev) (by simp only [List.length_cons]; omega)

theorem PlainName.not_isAbs {name : GoString} (h : PlainName name) : isAbs name = false := by
  cases name with
  | nil => rfl
  | cons c name =>
      have hc : c ≠ 0x2F := fun hc => h.no_slash (by simp [hc])
      simp [isAbs, hc]

/-- The empty path names the directory paths start from. -/
theorem FileSystem.locate_nil (fs : FileSystem) : fs.locate [] = fs.cwd := by
  unfold locate walk
  exact (congrArg List.reverse (cleanStep_skip (fun hs => hs.1 rfl) true _)).trans
    (List.reverse_reverse _)

theorem join_nil {name : GoString} (h : name ≠ []) : join [[], name] = clean name := by
  unfold join
  rw [List.dropWhile_cons_of_pos (by simp), List.dropWhile_cons_of_neg (by simpa using h)]
  rfl

/-- A plain name leads to an entry of the directory, also of one that has no name. -/
theorem FileSystem.locate_join_plain (fs : FileSystem) (dir : GoString) {name : GoString}
    (h : PlainName name) : fs.locate (join [dir, name]) = fs.locate dir ++ [name] := by
  by_cases hd : dir = []
  · rw [hd, join_nil h.standing.1, locate_clean, locate_nil, locate, h.not_isAbs]
    exact walk_plainName h fs.cwd
  · rw [locate_join fs hd, walk_plainName h]

/-! ## Directories of paths -/

/-- The last element of a path. -/
def EndsIn (path name : GoString) : Prop := path = name ∨ ∃ front, path = front ++ 0x2F :: name

theorem joinSlash_concat {es : List GoString} (h : es ≠ []) (e : GoString) :
    joinSlash (es ++ [e]) = joinSlash es ++ 0x2F :: e := by
  induction es with
  | nil => exact absurd rfl h
  | cons f es ih =>
      cases es with
      | nil => rfl
      | cons g es =>
          show f ++ 0x2F :: joinSlash (g :: es ++ [e])
            = (f ++ 0x2F :: joinSlash (g :: es)) ++ 0x2F :: e
          rw [ih (by simp), List.append_assoc, List.cons_append]

theorem cleanElems_append_plain {dir name : GoString} (hd : dir ≠ []) (h : PlainName name) :
    cleanElems (dir ++ 0x2F :: name) = cleanElems dir ++ [name] := by
  unfold cleanElems
  rw [isAbs_append hd, split_append_sep, split_of_notMem h.no_slash, List.foldl_append,
    List.foldl_cons,
    List.foldl_nil, cleanStep_name h.standing h.not_dotDot, List.reverse_cons]

/-- The paths of the entries of a directory have all but the name in common. -/
theorem join_eq_append (dir : GoString) : ∃ front, (front = [] ∨ ∃ start, front = start ++ [0x2F])
    ∧ ∀ name, PlainName name → join [dir, name] = front ++ name := by
  by_cases hd : dir = []
  · refine ⟨[], .inl rfl, fun name h => ?_⟩
    have helems : cleanElems name = [name] := by
      unfold cleanElems
      rw [split_of_notMem h.no_slash, List.foldl_cons, List.foldl_nil,
        cleanStep_name h.standing h.not_dotDot]
      rfl
    rw [hd, join_nil h.standing.1, clean, h.not_isAbs, helems]
    rfl
  · have hjoin : ∀ name, PlainName name → join [dir, name]
        = if isAbs dir then 0x2F :: joinSlash (cleanElems dir ++ [name])
          else joinSlash (cleanElems dir ++ [name]) := by
      intro name h
      have hne : cleanElems dir ++ [name] ≠ [] := by simp
      rw [join_pair hd, clean, isAbs_append hd, cleanElems_append_plain hd h, if_neg hne]
    by_cases hnil : cleanElems dir = []
    · -- the name is all there is
      rw [hnil] at hjoin
      by_cases habs : isAbs dir = true
      · exact ⟨[0x2F], .inr ⟨[], rfl⟩, fun name h => by rw [hjoin name h, if_pos habs]; rfl⟩
      · exact ⟨[], .inl rfl, fun name h => by rw [hjoin name h, if_neg habs]; rfl⟩
    · by_cases habs : isAbs dir = true
      · refine ⟨0x2F :: joinSlash (cleanElems dir) ++ [0x2F], .inr ⟨_, rfl⟩, fun name h => ?_⟩
        rw [hjoin name h, if_pos habs, joinSlash_concat hnil]
        simp
      · refine ⟨joinSlash (cleanElems dir) ++ [0x2F], .inr ⟨_, rfl⟩, fun name h => ?_⟩
        rw [hjoin name h, if_neg habs, joinSlash_concat hnil]
        simp

theorem endsIn_join (dir : GoString) {name : GoString} (h : PlainName name) :
    EndsIn (join [dir, name]) name := by
  obtain ⟨front, hfront, hjoin⟩ := join_eq_append dir
  rw [hjoin name h]
  rcases hfront with rfl | ⟨start, rfl⟩
  · exact .inl rfl
  · exact .inr ⟨start, by simp⟩

/-! ## Bytes of paths -/

theorem mem_of_mem_joinSlash {es : List GoString} {c : UInt8} (h : c ∈ joinSlash es) :
    c = 0x2F ∨ ∃ e ∈ es, c ∈ e := by
  induction es with
  | nil => cases h
  | cons e es ih =>
      cases es with
      | nil => exact .inr ⟨e, by simp, h⟩
      | cons f es =>
          rcases List.mem_append.mp h with h | h
          · exact .inr ⟨e, by simp, h⟩
          · rcases List.mem_cons.mp h with h | h
            · exact .inl h
            · rcases ih h with h | ⟨e', he', h⟩
              · exact .inl h
              · exact .inr ⟨e', List.mem_cons_of_mem _ he', h⟩

/-- `Clean` adds slashes and dots only. -/
theorem mem_of_mem_clean {path : GoString} {c : UInt8} (h : c ∈ clean path) :
    c = 0x2F ∨ c = 0x2E ∨ c ∈ path := by
  have helem : c ∈ joinSlash (cleanElems path) → c = 0x2F ∨ c = 0x2E ∨ c ∈ path := by
    intro h
    rcases mem_of_mem_joinSlash h with h | ⟨e, he, h⟩
    · exact .inl h
    · exact .inr (.inr (mem_of_mem_elem (mem_foldl_cleanStep (List.mem_reverse.mp he)).1 h))
  unfold clean at h
  split at h
  · rcases List.mem_cons.mp h with h | h
    · exact .inl h
    · exact helem h
  · split at h
    · exact .inr (.inl (List.mem_singleton.mp h))
    · exact helem h

theorem mem_of_mem_dirname {path : GoString} {c : UInt8} (h : c ∈ dirname path) :
    c = 0x2F ∨ c = 0x2E ∨ c ∈ path := by
  rcases mem_of_mem_clean h with h | h | h
  · exact .inl h
  · exact .inr (.inl h)
  · exact .inr (.inr ((List.rdropWhile_prefix _ _).subset h))

theorem mem_of_mem_join {dir name : GoString} (hname : name ≠ []) {c : UInt8}
    (h : c ∈ join [dir, name]) : c = 0x2F ∨ c = 0x2E ∨ c ∈ dir ∨ c ∈ name := by
  by_cases hd : dir = []
  · rw [hd, join_nil hname] at h
    rcases mem_of_mem_clean h with h | h | h
    · exact .inl h
    · exact .inr (.inl h)
    · exact .inr (.inr (.inr h))
  · rw [join_pair hd] at h
    rcases mem_of_mem_clean h with h | h | h
    · exact .inl h
    · exact .inr (.inl h)
    · rcases List.mem_append.mp h with h | h
      · exact .inr (.inr (.inl h))
      · rcases List.mem_cons.mp h with h | h
        · exact .inl h
        · exact .inr (.inr (.inr h))

/-! ## Where directories are -/

/-- What a path leads to stands where its directory is. -/
theorem FileSystem.locate_dirname (fs : FileSystem) {path name : GoString} (h : PlainName name)
    (hpath : EndsIn path name) : fs.locate path = fs.locate (dirname path) ++ [name] := by
  have hkeep : ∀ c ∈ name, (c != 0x2F) = true := by
    intro c hc
    rw [bne_iff_ne]
    rintro rfl
    exact h.no_slash hc
  unfold dirname
  rw [locate_clean]
  rcases hpath with rfl | ⟨front, rfl⟩
  · rw [List.rdropWhile_eq_nil_iff.mpr hkeep, locate_nil, locate, h.not_isAbs]
    exact walk_plainName h fs.cwd
  · have hdrop : (front ++ 0x2F :: name).rdropWhile (· != 0x2F) = front ++ [0x2F] := by
      rw [List.rdropWhile, List.reverse_append, List.reverse_cons, List.append_assoc,
        List.dropWhile_append_of_pos (fun c hc => hkeep c (List.mem_reverse.mp hc))]
      simp
    have habs : isAbs (front ++ 0x2F :: name) = isAbs (front ++ [0x2F]) := by
      cases front <;> rfl
    have hskip : ∀ stack, cleanStep true stack [] = stack :=
      cleanStep_skip (fun hs => hs.1 rfl) true
    rw [hdrop]
    unfold locate walk
    rw [habs, split_append_sep, split_append_sep, List.foldl_append, List.foldl_append,
      split_of_notMem h.no_slash]
    show (cleanStep true _ name).reverse = (cleanStep true _ []).reverse ++ [name]
    rw [cleanStep_name h.standing h.not_dotDot, List.reverse_cons]
    exact congrArg (·.reverse ++ [name]) (hskip _).symm

theorem FileSystem.locate_dirname_join (fs : FileSystem) (dir : GoString) {name : GoString}
    (h : PlainName name) : fs.locate (dirname (join [dir, name])) = fs.locate dir := by
  have hjoin := fs.locate_join_plain dir h
  rw [fs.locate_dirname h (endsIn_join dir h)] at hjoin
  exact List.append_cancel_right hjoin

/-! ## What the calls do -/

namespace FileSystem

variable {fs fs' : FileSystem} {path : GoString}

theorem readFile_eq_ok {content : GoString} :
    fs.readFile path = .ok content ↔
      0 ∉ path ∧ fs.locate path ≠ [] ∧ fs.nodes.get? (fs.locate path) = some (.file content) := by
  simp only [readFile]
  split
  · rename_i h
    refine ⟨fun h' => (by cases h'), ?_⟩
    rintro ⟨h0, hroot, hfile⟩
    rcases h with h | h
    · exact absurd h h0
    · simp [isDir, hroot, hfile] at h
  · rename_i h
    simp only [isDir, not_or, Bool.or_eq_true, decide_eq_true_eq] at h
    split
    · rename_i c hc
      simp [h, hc]
    · rename_i hno
      refine ⟨fun h' => (by cases h'), fun h' => absurd h'.2.2 (hno content)⟩

/-- What can be read is there, and no directory. -/
theorem stat_of_readFile {content : GoString} (h : fs.readFile path = .ok content) :
    fs.stat path = .ok false := by
  obtain ⟨h0, hroot, hfile⟩ := readFile_eq_ok.mp h
  have hdir : fs.isDir (fs.locate path) = false := by simp [isDir, hroot, hfile]
  simp only [stat, if_neg h0, hdir, Bool.false_eq_true, if_false, hfile]

@[simp] theorem locate_put (loc : Location) (content : GoString) :
    (fs.put loc content).locate path = fs.locate path := rfl

theorem get?_put (loc l : Location) (content : GoString) :
    (fs.put loc content).nodes.get? l = if l = loc then some (.file content) else fs.nodes.get? l :=
  GoMap.get?_set _ _ l _

theorem put_eq_self_iff {loc : Location} {content : GoString} :
    fs.put loc content = fs ↔ fs.nodes.get? loc = some (.file content) := by
  rw [← GoMap.set_eq_self_iff]
  exact ⟨congrArg FileSystem.nodes, fun h => congrArg (fun nodes => { fs with nodes := nodes }) h⟩

theorem brokenOff_eq_some {loc : Location} {written : Nat} :
    fs.brokenOff loc = some written ↔ fs.faults.get? loc = some (.brokenOff written) := by
  unfold brokenOff
  cases fs.faults.get? loc with
  | none => simp
  | some fault => cases fault <;> simp

theorem fill_eq_ok {loc : Location} {content : GoString} :
    fs.fill loc content = .ok fs' ↔ fs.brokenOff loc = none ∧ fs' = fs.put loc content := by
  unfold fill
  cases fs.brokenOff loc with
  | none => simp [eq_comm]
  | some written => simp

theorem writeFile_eq_ok {content : GoString} :
    fs.writeFile path content = .ok fs' ↔
      fs.Opens path ∧ fs.brokenOff (fs.locate path) = none
        ∧ fs' = fs.put (fs.locate path) content := by
  unfold writeFile
  by_cases hopens : fs.Opens path
  · rw [if_pos hopens, fill_eq_ok]
    exact (and_iff_right hopens).symm
  · simp [hopens]

/-- **A write that fails was not begun, or it has left the first bytes.** -/
theorem writeFile_eq_error {content : GoString} (h : fs.writeFile path content = .error fs') :
    ¬ fs.Opens path ∧ fs' = fs
      ∨ fs.Opens path ∧ ∃ written, fs.brokenOff (fs.locate path) = some written
        ∧ fs' = fs.put (fs.locate path) (content.take written) := by
  unfold writeFile at h
  split at h
  · rename_i hopens
    unfold fill at h
    split at h
    · cases h
    · rename_i written hbroken
      cases h
      exact .inr ⟨hopens, written, hbroken, rfl⟩
  · rename_i hopens
    cases h
    exact .inl ⟨hopens, rfl⟩

/-- What was written is read. -/
theorem readFile_writeFile {content : GoString} (h : fs.writeFile path content = .ok fs') :
    fs'.readFile path = .ok content := by
  obtain ⟨⟨h0, hdir, -⟩, -, rfl⟩ := writeFile_eq_ok.mp h
  simp only [isDir, Bool.or_eq_false_iff, decide_eq_false_iff_not] at hdir
  exact readFile_eq_ok.mpr ⟨h0, hdir.1, GoMap.get?_set_self _ _ _⟩

theorem remove_eq_some (h : fs.remove path = some fs') :
    fs' = { fs with nodes := fs.nodes.delete (fs.locate path) } := by
  simp only [remove] at h
  split at h
  · cases h
  · split at h
    · cases h
    · cases h; rfl
    · split at h
      · cases h; rfl
      · cases h

/-- A file that stands where it is removed is removed. -/
theorem remove_file {content : GoString} (h0 : 0 ∉ path)
    (h : fs.nodes.get? (fs.locate path) = some (.file content)) :
    fs.remove path = some { fs with nodes := fs.nodes.delete (fs.locate path) } := by
  simp only [remove, if_neg h0, h]

/-- **Making directories one after the other** works unless a file is in the way. -/
theorem mkdirs_spec (locs : List Location) (fs : FileSystem) :
    ((∃ l ∈ locs, ∃ c, fs.nodes.get? l = some (.file c)) ∧ locs.foldlM mkdir fs = none)
      ∨ (∀ l ∈ locs, ∀ c, fs.nodes.get? l ≠ some (.file c))
        ∧ ∃ fs', locs.foldlM mkdir fs = some fs' ∧ fs'.cwd = fs.cwd
          ∧ ∀ l, fs'.nodes.get? l
              = if l ∈ locs ∧ fs.nodes.get? l = none then some .dir else fs.nodes.get? l := by
  induction locs generalizing fs with
  | nil => exact .inr ⟨by simp, fs, rfl, rfl, by simp⟩
  | cons loc locs ih =>
      rw [List.foldlM_cons]
      cases hloc : fs.nodes.get? loc with
      | none =>
          have hmk : fs.mkdir loc = some { fs with nodes := fs.nodes.set loc .dir } := by
            simp only [mkdir, hloc]
          have hset : ∀ l, (fs.nodes.set loc .dir).get? l
              = if l = loc then some .dir else fs.nodes.get? l := fun l => GoMap.get?_set _ _ l _
          rw [hmk]
          rcases ih { fs with nodes := fs.nodes.set loc .dir } with
            ⟨⟨l, hl, c, hc⟩, hnone⟩ | ⟨hfree, fs', hfs', hcwd, hget⟩
          · refine .inl ⟨⟨l, List.mem_cons_of_mem _ hl, c, ?_⟩, hnone⟩
            rw [hset] at hc
            split at hc
            · cases hc
            · exact hc
          · refine .inr ⟨?_, fs', hfs', hcwd, fun l => ?_⟩
            · intro l hl c hc
              rcases List.mem_cons.mp hl with rfl | hl
              · rw [hloc] at hc; cases hc
              · refine hfree l hl c ?_
                rw [hset, if_neg (fun e => by rw [e, hloc] at hc; cases hc), hc]
            · rw [hget, hset]
              by_cases hl : l = loc
              · simp [hl, hloc]
              · simp [hl]
      | some n =>
          cases n with
          | file c =>
              have hmk : fs.mkdir loc = none := by simp only [mkdir, hloc]
              rw [hmk]
              exact .inl ⟨⟨loc, by simp, c, hloc⟩, rfl⟩
          | dir =>
              have hmk : fs.mkdir loc = some fs := by simp only [mkdir, hloc]
              rw [hmk]
              rcases ih fs with ⟨⟨l, hl, c, hc⟩, hnone⟩ | ⟨hfree, fs', hfs', hcwd, hget⟩
              · exact .inl ⟨⟨l, List.mem_cons_of_mem _ hl, c, hc⟩, hnone⟩
              · refine .inr ⟨?_, fs', hfs', hcwd, fun l => ?_⟩
                · intro l hl c hc
                  rcases List.mem_cons.mp hl with rfl | hl
                  · rw [hloc] at hc; cases hc
                  · exact hfree l hl c hc
                · rw [hget]
                  by_cases hl : l = loc
                  · simp [hl, hloc]
                  · simp [hl]

theorem mkdirs_faults {locs : List Location} {fs fs' : FileSystem}
    (h : locs.foldlM mkdir fs = some fs') : fs'.faults = fs.faults := by
  induction locs generalizing fs with
  | nil =>
      cases h
      rfl
  | cons loc locs ih =>
      rw [List.foldlM_cons] at h
      obtain ⟨made, hmade, hrest⟩ := Option.bind_eq_some_iff.mp h
      refine (ih hrest).trans ?_
      unfold mkdir at hmade
      split at hmade <;> cases hmade <;> rfl

theorem mem_steps {l loc : Location} : l ∈ steps loc ↔ l <+: loc ∧ l ≠ [] := by
  unfold steps
  cases loc with
  | nil => simp
  | cons n loc =>
      rw [List.inits_cons, List.tail_cons, List.mem_map]
      constructor
      · rintro ⟨l', hl', rfl⟩
        exact ⟨List.cons_prefix_cons.mpr ⟨rfl, (List.mem_inits _ _).mp hl'⟩, by simp⟩
      · rintro ⟨hlead, hne⟩
        cases l with
        | nil => exact absurd rfl hne
        | cons m l =>
            obtain ⟨rfl, hl⟩ := List.cons_prefix_cons.mp hlead
            exact ⟨l, (List.mem_inits _ _).mpr hl, rfl⟩

theorem mkdirAll_eq_some :
    (∃ fs', fs.mkdirAll path = some fs') ↔
      0 ∉ path ∧ ∀ l ∈ steps (fs.locate path), ∀ c, fs.nodes.get? l ≠ some (.file c) := by
  unfold mkdirAll
  by_cases h0 : 0 ∈ path
  · simp [h0]
  · rw [if_neg h0]
    rcases mkdirs_spec (steps (fs.locate path)) fs with
      ⟨⟨l, hl, c, hc⟩, hnone⟩ | ⟨hfree, fs', hfs', -⟩
    · refine iff_of_false ?_ fun h => absurd hc (h.2 l hl c)
      rintro ⟨fs', h⟩
      rw [hnone] at h
      cases h
    · exact ⟨fun _ => ⟨h0, hfree⟩, fun _ => ⟨fs', hfs'⟩⟩

theorem mkdirAll_get? (h : fs.mkdirAll path = some fs') :
    fs'.cwd = fs.cwd ∧ ∀ l, fs'.nodes.get? l
      = if l ∈ steps (fs.locate path) ∧ fs.nodes.get? l = none then some .dir
        else fs.nodes.get? l := by
  unfold mkdirAll at h
  split at h
  · cases h
  · rcases mkdirs_spec (steps (fs.locate path)) fs with ⟨-, hnone⟩ | ⟨-, fs₁, hfs₁, hcwd, hget⟩
    · rw [hnone] at h
      cases h
    · rw [hfs₁] at h
      cases h
      exact ⟨hcwd, hget⟩

/-- Making directories does not change where writes are refused or broken off. -/
theorem mkdirAll_faults (h : fs.mkdirAll path = some fs') : fs'.faults = fs.faults := by
  unfold mkdirAll at h
  split at h
  · cases h
  · exact mkdirs_faults h

/-- Making directories leaves what can be read. -/
theorem readFile_mkdirAll {dir content : GoString} (h : fs.mkdirAll dir = some fs')
    (hread : fs.readFile path = .ok content) : fs'.readFile path = .ok content := by
  obtain ⟨hcwd, hget⟩ := mkdirAll_get? h
  obtain ⟨h0, hroot, hfile⟩ := readFile_eq_ok.mp hread
  have hloc : fs'.locate path = fs.locate path := by rw [locate, locate, hcwd]
  refine readFile_eq_ok.mpr ⟨h0, hloc ▸ hroot, ?_⟩
  rw [hloc, hget, if_neg (by simp [hfile]), hfile]

/-- What can be found, and where nothing is found. -/
theorem stat_eq_ok : (∃ d, fs.stat path = .ok d) ↔
    0 ∉ path ∧ (fs.locate path = [] ∨ fs.nodes.get? (fs.locate path) ≠ none) := by
  simp only [stat]
  split
  · rename_i h0
    refine iff_of_false ?_ (fun h => h.1 h0)
    rintro ⟨d, h⟩
    cases h
  · rename_i h0
    rw [and_iff_right h0]
    split
    · rename_i hdir
      refine iff_of_true ⟨true, rfl⟩ ?_
      simp only [isDir, Bool.or_eq_true, decide_eq_true_eq, beq_iff_eq] at hdir
      rcases hdir with hroot | hdir
      · exact .inl hroot
      · exact .inr (by rw [hdir]; simp)
    · rename_i hdir
      simp only [isDir, Bool.or_eq_true, decide_eq_true_eq, beq_iff_eq, not_or] at hdir
      cases hn : fs.nodes.get? (fs.locate path) with
      | none =>
          refine iff_of_false ?_ (by simp [hdir.1])
          rintro ⟨d, h⟩
          cases h
      | some n => exact iff_of_true ⟨false, rfl⟩ (by simp)

/-- A directory is listed alike where it and its entries are alike. -/
theorem readDir_congr (hcwd : fs'.cwd = fs.cwd)
    (hway : ∀ l, l <+: fs.locate path → l ≠ fs.locate path →
      ((∃ c, fs'.nodes.get? l = some (.file c)) ↔ ∃ c, fs.nodes.get? l = some (.file c)))
    (hdir : fs'.nodes.get? (fs.locate path) = fs.nodes.get? (fs.locate path))
    (hin : ∀ n, fs'.nodes.get? (fs.locate path ++ [n]) = fs.nodes.get? (fs.locate path ++ [n])) :
    fs'.readDir path = fs.readDir path := by
  have hloc : fs'.locate path = fs.locate path := by rw [locate, locate, hcwd]
  have hisDir : fs'.isDir (fs.locate path) = fs.isDir (fs.locate path) := by
    rw [isDir, isDir, hdir]
  have herror : fs'.lookupError (fs.locate path) = fs.lookupError (fs.locate path) := by
    -- a file is on the way of both or of none
    have hfile : ∀ n : Option Node, n.any (· != .dir) = true ↔ ∃ c, n = some (.file c) := by
      intro n
      cases n with
      | none => simp
      | some n => cases n <;> simp
    have hany : ∀ l ∈ (fs.locate path).inits, (fs'.nodes.get? l).any (· != .dir)
        = (fs.nodes.get? l).any (· != .dir) := by
      intro l hl
      by_cases heq : l = fs.locate path
      · rw [heq, hdir]
      · rw [Bool.eq_iff_iff, hfile, hfile]
        exact hway l ((List.mem_inits _ _).mp hl) heq
    have hsame : ((fs.locate path).inits.any fun l => (fs'.nodes.get? l).any (· != .dir))
        = (fs.locate path).inits.any fun l => (fs.nodes.get? l).any (· != .dir) := by
      rw [Bool.eq_iff_iff, List.any_eq_true, List.any_eq_true]
      exact exists_congr fun l => and_congr_right fun hl => by rw [hany l hl]
    rw [lookupError, lookupError, hsame]
  have hnames : fs'.nodes.keys.filter (fun l => l ≠ [] ∧ l.dropLast = fs.locate path)
      = fs.nodes.keys.filter (fun l => l ≠ [] ∧ l.dropLast = fs.locate path) := by
    refine (Multiset.Nodup.ext ((GoMap.nodup_keys _).filter _)
      ((GoMap.nodup_keys _).filter _)).mpr ?_
    intro l
    rw [Multiset.mem_filter, Multiset.mem_filter, GoMap.mem_keys, GoMap.mem_keys]
    refine and_congr_left ?_
    rintro ⟨hne, hlast⟩
    have hsplit : l = fs.locate path ++ [l.getLast hne] := by
      rw [← hlast, List.dropLast_append_getLast]
    have hget := hin (l.getLast hne)
    rw [← hsplit] at hget
    rw [hget]
  have hentries : ∀ n, fs'.isDir (fs.locate path ++ [n]) = fs.isDir (fs.locate path ++ [n]) := by
    intro n
    rw [isDir, isDir, hin]
  simp only [readDir, hloc, hisDir, herror, hnames, hentries]

/-- What is listed is there. -/
theorem mem_readDir {entries : List DirEntry} (h : fs.readDir path = .ok entries) {de : DirEntry}
    (hde : de ∈ entries) : fs.nodes.get? (fs.locate path ++ [de.name]) ≠ none := by
  simp only [readDir] at h
  split at h
  · cases h
  split at h
  · cases h
  · cases h
    obtain ⟨n, hn, rfl⟩ := List.mem_map.mp hde
    rw [Multiset.mem_sort] at hn
    obtain ⟨l, hl, rfl⟩ := Multiset.mem_map.mp hn
    obtain ⟨hkey, hne, hlast⟩ := Multiset.mem_filter.mp hl
    have hsplit : fs.locate path ++ [l.getLastD []] = l := by
      rw [← hlast, List.getLastD_eq_getLast?, List.getLast?_eq_some_getLast hne, Option.getD_some,
        List.dropLast_append_getLast]
    rw [hsplit]
    exact GoMap.mem_keys.mp hkey

/-- A file is read alike where it is alike. -/
theorem readFile_congr (hcwd : fs'.cwd = fs.cwd)
    (hget : fs'.nodes.get? (fs.locate path) = fs.nodes.get? (fs.locate path))
    (hsome : fs.nodes.get? (fs.locate path) ≠ none) : fs'.readFile path = fs.readFile path := by
  have hloc : fs'.locate path = fs.locate path := by rw [locate, locate, hcwd]
  have hisDir : fs'.isDir (fs.locate path) = fs.isDir (fs.locate path) := by
    rw [isDir, isDir, hget]
  simp only [readFile, hloc, hisDir, hget]
  split
  · rfl
  · rename_i hdir
    cases hnode : fs.nodes.get? (fs.locate path) with
    | none => exact absurd hnode hsome
    | some node =>
        cases node with
        | file content => rfl
        | dir => simp [isDir, hnode] at hdir

theorem get?_foldl_set_dir {locs : List Location} {m : GoMap Location Node} {loc : Location}
    {c : GoString} (h : (locs.foldl (·.set · .dir) m).get? loc = some (.file c)) :
    m.get? loc = some (.file c) := by
  induction locs generalizing m with
  | nil => exact h
  | cons l locs ih =>
      have hset := ih h
      rw [GoMap.get?_set] at hset
      split at hset
      · cases hset
      · exact hset

/-- A tree of files has no others. -/
theorem mem_of_readFile_ofFiles {files : List (Location × GoString)} {content : GoString}
    (h : (ofFiles files).readFile path = .ok content) : content ∈ files.map Prod.snd := by
  obtain ⟨-, -, hget⟩ := readFile_eq_ok.mp h
  unfold ofFiles at hget
  -- the files that are still to come are the ones listed
  suffices hall : ∀ (m : GoMap Location Node) loc,
      (files.foldl (fun m f => (f.1.dropLast.inits.tail.foldl (·.set · .dir) m).set f.1 (.file f.2))
        m).get? loc = some (.file content) →
      content ∈ files.map Prod.snd ∨ m.get? loc = some (.file content) by
    rcases hall _ _ hget with hmem | hnone
    · exact hmem
    · cases hnone
  clear h hget
  induction files with
  | nil => exact fun m loc h => .inr h
  | cons f files ih =>
      intro m loc h
      rcases ih _ loc h with hmem | hset
      · exact .inl (List.mem_cons_of_mem _ hmem)
      · rw [GoMap.get?_set] at hset
        split at hset
        · cases hset
          exact .inl List.mem_cons_self
        · exact .inr (get?_foldl_set_dir hset)

end FileSystem

end Gsnet.Go
