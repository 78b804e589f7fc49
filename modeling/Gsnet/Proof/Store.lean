import Gsnet.Cli.Store

/-!
# Setting a key is heard by the next reader

`gsnet set` and `gsnet add` write what they are given without looking at it, and
every command after them, and the daemon, reads the file through `Parse`. A reader
finds what was set if the line of the new entry is taken apart where it was put
together, and `Storable` says exactly when it is:

* key and value are not empty, not padded, and hold no line feed; the key holds no
  `=` and does not begin with `#`;
* the key is not a known key spelled with U+0130, which `ToLower` makes an `i` and
  `EqualFold` does not;
* no line is too long for the scanner, those of the other entries included: a line
  `Key Value` comes back as `Key = Value`.

Otherwise the value is lost or another key gets it, or the file does not parse any
more and every later command fails.

A command that fails leaves the file alone unless it fails in the middle of the write.
There is no second file, so what the system has written till then is all that is left.
-/

namespace Gsnet.Cli

open Go Config Daemon

section Law

variable [CaseFold]

/-- What `set` promises: the key has this value alone, and no other key is touched. -/
def SetLaw (old new : Entries) (key value : GoString) : Prop :=
  new.getAllOf key = [value] ∧ ∀ k, ¬ EqualFold k key → new.getAllOf k = old.getAllOf k

/-- What `add` promises: the key has one more value, and no other key is touched. -/
def AddLaw (old new : Entries) (key value : GoString) : Prop :=
  new.getAllOf key = old.getAllOf key ++ [value]
    ∧ ∀ k, ¬ EqualFold k key → new.getAllOf k = old.getAllOf k

end Law

/-- When an entry can be put after others. -/
structure Storable (kept : Entries) (key value : GoString) : Prop where
  clean : Entry.Clean ⟨key, value⟩
  /-- A key that is looked up as a known one is that key. -/
  spelled : ∀ c ∈ canonical, toLower c = toLower key → equalFold key c = true
  short : Entries.Short (kept ++ [⟨key, value⟩])

/-! ## Keys -/

/-- The key a reader finds is the one that was set, up to its case. -/
theorem equalFold_canonicalKey [CaseFold] (key : GoString) :
    EqualFold (canonicalKey key) key
      ↔ ∀ c ∈ canonical, toLower c = toLower key → equalFold key c = true := by
  constructor
  · intro h c hc hlow
    rw [canonicalKey_of_mem hc hlow] at h
    exact (equalFold_iff (fun b hb => ((known_bytes hc).2 b hb).2.1) key).mp h.symm
  · intro h
    unfold canonicalKey
    cases hf : canonical.find? fun c => toLower c == toLower key with
    | none => exact EqualFold.refl key
    | some c =>
        have hc := List.mem_of_find?_eq_some hf
        have hlow : toLower c = toLower key := by simpa using List.find?_some hf
        exact ((equalFold_iff (fun b hb => ((known_bytes hc).2 b hb).2.1) key).mpr
          (h c hc hlow)).symm

/-- Whether an entry is clean does not depend on the case of its key. -/
theorem clean_of_equalFold [CaseFold] {e : Entry} {key : GoString} (h : e.Clean)
    (hk : EqualFold e.key key) : Entry.Clean ⟨key, e.value⟩ where
  key_ne_nil := hk.ne_nil h.key_ne_nil
  key_trimmed := hk.trimmed h.key_trimmed
  key_line hm := h.key_line (hk.symm.mem (by decide) (by decide) hm)
  key_sep hm := h.key_sep (hk.symm.mem (by decide) (by decide) hm)
  key_comment hh := h.key_comment (hk.symm.head (by decide) (by decide) hh)
  value_ne_nil := h.value_ne_nil
  value_trimmed := h.value_trimmed
  value_line := h.value_line

/-! ## Lookups -/

section Lookups

variable [CaseFold] {es : Entries} {k key value : GoString}

theorem getAllOf_without_self : (without es key).getAllOf key = [] := by
  rw [List.eq_nil_iff_forall_not_mem]
  intro v hv
  obtain ⟨e, he, hk, -⟩ := mem_getAllOf.mp hv
  exact absurd hk (by simpa using (List.mem_filter.mp he).2)

theorem getAllOf_without (h : ¬ EqualFold k key) :
    (without es key).getAllOf k = es.getAllOf k := by
  unfold Entries.getAllOf without
  rw [List.filter_filter]
  congr 1
  refine List.filter_congr fun e _ => ?_
  by_cases hk : EqualFold e.key k
  · have hne : ¬ EqualFold e.key key := fun he => h (hk.symm.trans he)
    simp [hk, hne]
  · simp [hk]

/-- Replacing a key is adding to what is left without it. -/
theorem setLaw_iff {new : Entries} :
    SetLaw es new key value ↔ AddLaw (without es key) new key value := by
  unfold SetLaw AddLaw
  rw [getAllOf_without_self, List.nil_append]
  refine and_congr_right fun _ => forall_congr' fun k => imp_congr_right fun hk => ?_
  rw [getAllOf_without hk]

end Lookups

/-! ## What is read after a write -/

section Written

variable {kept new : Entries}

theorem parsed_append {e : Entry} (hkept : kept.Parsed) (he : e.Clean) :
    ∀ e' ∈ kept ++ [e], e'.Clean := by
  intro e' he'
  rcases List.mem_append.mp he' with h | h
  · exact (hkept e' h).1
  · rwa [List.mem_singleton.mp h]

/-- A list that was read, and a clean entry after it, are read back, unless a line is too long. -/
theorem parse_append_iff {e : Entry} (hkept : kept.Parsed) (he : e.Clean) :
    Config.parse (Entries.render (kept ++ [e])) = .ok new
      ↔ Entries.Short (kept ++ [e]) ∧ new = kept ++ [e.canon] := by
  rw [parse_render_iff (parsed_append hkept he), List.map_append, hkept.map_canon,
    List.map_singleton]

variable [CaseFold] {key value : GoString}

/-- With a clean entry the law is a matter of how its key is spelled. -/
theorem addLaw_append_iff :
    AddLaw kept (kept ++ [Entry.canon ⟨key, value⟩]) key value
      ↔ EqualFold (canonicalKey key) key := by
  have hget : ∀ k, Entries.getAllOf (kept ++ [Entry.canon ⟨key, value⟩]) k
      = kept.getAllOf k ++ if EqualFold (canonicalKey key) k then [value] else [] := fun k => by
    rw [getAllOf_append, getAllOf_single, Entry.canon]
  constructor
  · rintro ⟨h, -⟩
    by_contra hn
    rw [hget, if_neg hn] at h
    simpa using List.append_cancel_left h
  · intro h
    refine ⟨by rw [hget, if_pos h], fun k hk => ?_⟩
    have hn : ¬ EqualFold (canonicalKey key) k := fun hc => hk (hc.symm.trans h)
    rw [hget, if_neg hn, List.append_nil]

/-- **What is read after the write is what was promised, exactly if the entry is storable.** -/
theorem storable_iff (hkept : kept.Parsed) :
    (∃ new, Config.parse (Entries.render (kept ++ [⟨key, value⟩])) = .ok new
      ∧ AddLaw kept new key value) ↔ Storable kept key value := by
  constructor
  · rintro ⟨new, hparse, hlaw⟩
    -- the value is found in an entry that was read, and that makes key and value clean
    have hmem : value ∈ new.getAllOf key := by rw [hlaw.1]; simp
    obtain ⟨e, he, hk, rfl⟩ := mem_getAllOf.mp hmem
    have hclean := clean_of_equalFold (parse_clean hparse e he).1 hk
    obtain ⟨hshort, rfl⟩ := (parse_append_iff hkept hclean).mp hparse
    exact ⟨hclean, (equalFold_canonicalKey key).mp (addLaw_append_iff.mp hlaw), hshort⟩
  · intro h
    exact ⟨_, (parse_append_iff hkept h.clean).mpr ⟨h.short, rfl⟩,
      addLaw_append_iff.mpr ((equalFold_canonicalKey key).mpr h.spelled)⟩

end Written

/-! ## The commands -/

section Commands

variable {p : Paths} {fs fs' : FileSystem} {old : Entries} {key value : GoString}

variable [CaseFold]

theorem cmdSet_iff (hold : parseFile fs p.confFile = .ok old)
    (h : cmdSet p fs [key, value] = (fs', none)) :
    (∃ new, parseFile fs' p.confFile = .ok new ∧ SetLaw old new key value)
      ↔ Storable (without old key) key value := by
  have hwrite := (run_result (c := .set [key, value]) hold rfl).symm.trans h
  have hkept : (without old key).Parsed := (parseFile_parsed hold).filter _
  rw [writeConf_ok hwrite, ← storable_iff hkept]
  simp only [setLaw_iff]

theorem cmdAdd_iff (hold : parseFile fs p.confFile = .ok old)
    (h : cmdAdd p fs [key, value] = (fs', none)) :
    (∃ new, parseFile fs' p.confFile = .ok new ∧ AddLaw old new key value)
      ↔ Storable old key value := by
  have hwrite := (run_result (c := .add [key, value]) hold rfl).symm.trans h
  rw [writeConf_ok hwrite, storable_iff (parseFile_parsed hold)]

end Commands

/-! ## Sequences of commands -/

/-- A command whose arguments make a line that can be read. -/
def Command.Tidy : Command → Prop
  | .set [key, value] => Entry.Clean ⟨key, value⟩ ∧ Entries.Short [⟨key, value⟩]
  | .add [key, value] => Entry.Clean ⟨key, value⟩ ∧ Entries.Short [⟨key, value⟩]
  | _ => True

section Sequences

variable [CaseFold] {p : Paths} {fs : FileSystem} {old es : Entries}

/-- What a tidy command writes to a file with short lines. -/
theorem result_tidy {c : Command} (hold : old.Parsed) (hshort : old.Short) (hc : c.Tidy)
    (h : c.result old = some es) : (∀ e ∈ es, e.Clean) ∧ es.Short := by
  have hfilter : ∀ q : Entry → Bool, (∀ e ∈ old.filter q, e.Clean) ∧ Entries.Short (old.filter q) :=
    fun q => ⟨fun e he => (hold e (List.mem_of_mem_filter he)).1,
      fun e he => hshort e (List.mem_of_mem_filter he)⟩
  have happend : ∀ {kept : Entries} {e : Entry}, (∀ e ∈ kept, e.Clean) ∧ kept.Short →
      e.Clean ∧ Entries.Short [e] →
      (∀ e' ∈ kept ++ [e], e'.Clean) ∧ Entries.Short (kept ++ [e]) := by
    rintro kept e ⟨hk, hks⟩ ⟨he, hes⟩
    constructor
    · intro e' he'
      rcases List.mem_append.mp he' with h | h
      · exact hk e' h
      · rwa [List.mem_singleton.mp h]
    · intro e' he'
      rcases List.mem_append.mp he' with h | h
      · exact hks e' h
      · exact hes e' h
  unfold Command.result at h
  split at h
  · cases h
    exact happend (hfilter _) hc
  · cases h
    exact happend ⟨fun e he => (hold e he).1, hshort⟩ hc
  · cases h
    exact hfilter _
  · cases h
    exact hfilter _
  · cases h

/-- The file parses, and every line of it can be written again. -/
def Sound (p : Paths) (fs : FileSystem) : Prop :=
  ∃ es, parseFile fs p.confFile = .ok es ∧ es.Short

/--
What a command writes is not broken off, or what is written till then is what the file
held.
-/
def Kept (p : Paths) (fs : FileSystem) (old : Entries) (c : Command) : Prop :=
  ∀ es written, c.result old = some es → fs.Opens p.confFile →
    fs.brokenOff (fs.locate p.confFile) = some written →
    fs.readFile p.confFile = .ok (es.render.take written)

/-- **A command that returns an error has changed nothing, exactly if the file is kept.** -/
theorem run_error_iff {c : Command} {e : StoreError} {fs' : FileSystem}
    (hold : parseFile fs p.confFile = .ok old) (h : c.run p fs = (fs', some e)) :
    fs' = fs ↔ Kept p fs old c := by
  rcases run_cases hold c with ⟨hres, text, hrun⟩
    | ⟨es, hres, ⟨hclosed, hrun⟩ | hrun | ⟨hopens, written, hbroken, hrun⟩⟩
  · cases hrun.symm.trans h
    refine iff_of_true rfl fun es written hes => ?_
    rw [hres] at hes
    cases hes
  · cases hrun.symm.trans h
    exact iff_of_true rfl fun _ _ _ hopens => absurd hopens hclosed
  · cases hrun.symm.trans h
  · cases hrun.symm.trans h
    obtain ⟨content, hread, -⟩ := parseFile_ok_iff.mp hold
    obtain ⟨h0, hroot, -⟩ := FileSystem.readFile_eq_ok.mp hread
    rw [FileSystem.put_eq_self_iff]
    constructor
    · intro hfile es' written' hes' _ hbroken'
      cases hres.symm.trans hes'
      cases hbroken.symm.trans hbroken'
      exact FileSystem.readFile_eq_ok.mpr ⟨h0, hroot, hfile⟩
    · intro hkept
      exact (FileSystem.readFile_eq_ok.mp (hkept es written hres hopens hbroken)).2.2

theorem run_cwd {c : Command} (hold : parseFile fs p.confFile = .ok old) :
    (c.run p fs).1.cwd = fs.cwd := by
  rcases run_cases hold c with ⟨-, text, hrun⟩
    | ⟨es, -, ⟨-, hrun⟩ | hrun | ⟨-, written, -, hrun⟩⟩ <;> rw [hrun] <;> rfl

/-- One tidy command keeps the file sound, unless its write is broken off. -/
theorem sound_run {c : Command} (h : Sound p fs) (hc : c.Tidy)
    (hwhole : fs.brokenOff (fs.locate p.confFile) = none) : Sound p (c.run p fs).1 := by
  obtain ⟨old, hold, hshort⟩ := h
  rcases run_cases hold c with ⟨-, text, hrun⟩
    | ⟨es, hres, ⟨-, hrun⟩ | hrun | ⟨-, written, hbroken, -⟩⟩
  · rw [hrun]
    exact ⟨old, hold, hshort⟩
  · rw [hrun]
    exact ⟨old, hold, hshort⟩
  · obtain ⟨hclean, hes⟩ := result_tidy (parseFile_parsed hold) hshort hc hres
    refine ⟨es.map Entry.canon, ?_, hes.map_canon⟩
    rw [hrun, writeConf_ok ((run_result hold hres).symm.trans hrun)]
    exact (parse_render_iff hclean).mpr ⟨hes, rfl⟩
  · cases hwhole.symm.trans hbroken

/-- A command that the system does not break off. -/
def Whole (loc : Location) (c : GoMap Location Fault × Command) : Prop :=
  ∀ written, c.1.get? loc ≠ some (.brokenOff written)

omit [CaseFold] in
theorem Whole.brokenOff {loc : Location} {c : GoMap Location Fault × Command} (h : Whole loc c)
    (fs : FileSystem) : FileSystem.brokenOff { fs with faults := c.1 } loc = none := by
  rw [Option.eq_none_iff_forall_ne_some]
  intro written hbroken
  exact h written (FileSystem.brokenOff_eq_some.mp hbroken)

/-- **And so does any sequence of them.** -/
theorem sound_runAll {cs : List (GoMap Location Fault × Command)} (h : Sound p fs)
    (hcs : ∀ c ∈ cs, c.2.Tidy ∧ Whole (fs.locate p.confFile) c) : Sound p (runAll p fs cs) := by
  induction cs generalizing fs with
  | nil => exact h
  | cons c cs ih =>
      obtain ⟨⟨htidy, hwhole⟩, hcs⟩ := List.forall_mem_cons.mp hcs
      obtain ⟨old, hold, -⟩ := id h
      have hcwd : (c.2.run p { fs with faults := c.1 }).1.cwd = fs.cwd := run_cwd hold
      have hloc : (c.2.run p { fs with faults := c.1 }).1.locate p.confFile
          = fs.locate p.confFile := by rw [FileSystem.locate, FileSystem.locate, hcwd]
      exact ih (sound_run h htidy (hwhole.brokenOff fs)) (by rw [hloc]; exact hcs)

/--
**The configuration store.** On a file that parses, `set` and `add` keep what they
promise exactly when the new entry is storable; a command that returns an error
leaves the tree as it was exactly if it is not broken off in the write of something
else; and after any sequence of tidy commands none of which is broken off, a file
whose lines were short still parses.
-/
theorem store_law_iff (p : Paths) (fs : FileSystem) (old : Entries)
    (hold : parseFile fs p.confFile = .ok old) :
    (∀ key value fs', cmdSet p fs [key, value] = (fs', none) →
      ((∃ new, parseFile fs' p.confFile = .ok new ∧ SetLaw old new key value)
        ↔ Storable (without old key) key value))
    ∧ (∀ key value fs', cmdAdd p fs [key, value] = (fs', none) →
      ((∃ new, parseFile fs' p.confFile = .ok new ∧ AddLaw old new key value)
        ↔ Storable old key value))
    ∧ (∀ (c : Command) fs' e, c.run p fs = (fs', some e) → (fs' = fs ↔ Kept p fs old c))
    ∧ ∀ cs : List (GoMap Location Fault × Command), old.Short →
        (∀ c ∈ cs, c.2.Tidy ∧ Whole (fs.locate p.confFile) c) →
        ∃ new, parseFile (runAll p fs cs) p.confFile = .ok new := by
  refine ⟨fun key value fs' h => cmdSet_iff hold h, fun key value fs' h => cmdAdd_iff hold h,
    fun c fs' e h => run_error_iff hold h, fun cs hshort hcs => ?_⟩
  obtain ⟨new, hnew, -⟩ := sound_runAll ⟨old, hold, hshort⟩ hcs
  exact ⟨new, hnew⟩

end Sequences

section Sample

attribute [local instance] asciiFold

/-- A tree with nothing but a configuration file. -/
def sampleStore (conf : String) : FileSystem :=
  .ofFiles [(sampleLoc ["gsnet.conf"], str conf)]

theorem sampleStorable :
    Storable [⟨str "Name", str "a"⟩] (str "port") (str "655") where
  clean := by decide +kernel
  spelled := by decide +kernel
  short := by decide +kernel

/-- A port that is replaced, in another spelling. -/
theorem store_law_replaced :
    ∃ new, parseFile (cmdSet samplePaths (sampleStore "Name = a\nPort 1\n")
        [str "port", str "655"]).1 samplePaths.confFile = .ok new
      ∧ SetLaw [⟨str "Name", str "a"⟩, ⟨str "Port", str "1"⟩] new (str "port") (str "655") :=
  ((store_law_iff samplePaths (sampleStore "Name = a\nPort 1\n")
    [⟨str "Name", str "a"⟩, ⟨str "Port", str "1"⟩] (by decide +kernel)).1 (str "port") (str "655") _
    (by decide +kernel)).mpr (by
      have hkept : without [⟨str "Name", str "a"⟩, ⟨str "Port", str "1"⟩] (str "port")
          = [⟨str "Name", str "a"⟩] := by decide +kernel
      rw [hkept]
      exact sampleStorable)

/-- The file after an empty value was set in it. -/
def sampleEmptied : FileSystem :=
  (cmdSet samplePaths (sampleStore "Name = a\n") [str "Port", []]).1

/-- The file system breaks off the write of the configuration after seven bytes. -/
def sampleBroken (conf : String) : FileSystem :=
  { sampleStore conf with
    faults := GoMap.empty.set (sampleLoc ["gsnet.conf"]) (.brokenOff 7) }

/--
An empty value is written, the file does not parse any more, and the key cannot be
deleted again; a value of two lines sets another key. A `set` that is broken off leaves
half of the first line.
-/
theorem store_law_broken :
    (cmdSet samplePaths (sampleStore "Name = a\n") [str "Port", []]).2 = none
    ∧ parseFile sampleEmptied samplePaths.confFile = .error (.emptyValue (str "Port ="))
    ∧ (cmdDel samplePaths sampleEmptied [str "Port"]).2
      = some (.config (.emptyValue (str "Port =")))
    ∧ parseFile (cmdAdd samplePaths (sampleStore "Name = a\n")
        [str "Port", str "1\nName = b"]).1 samplePaths.confFile
      = .ok [⟨str "Name", str "a"⟩, ⟨str "Port", str "1"⟩, ⟨str "Name", str "b"⟩]
    ∧ (cmdSet samplePaths (sampleBroken "Name = a\n") [str "Port", str "1"]).2 = some .write
    ∧ (cmdSet samplePaths (sampleBroken "Name = a\n") [str "Port", str "1"]).1.readFile
        samplePaths.confFile = .ok (str "Name = ") := by
  decide +kernel

end Sample

end Gsnet.Cli
