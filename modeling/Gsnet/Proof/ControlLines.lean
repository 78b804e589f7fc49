import Gsnet.Control
import Gsnet.Go.NetipProof
import Gsnet.Go.StringsProof

/-!
# Lines of the control protocol

Requests, greetings and PID files are words with a space between them, and nothing is
escaped. So what is written is read back where no word is empty and none has white
space in it: white space of any kind, since `strings.Fields` knows that of Unicode.
Numbers are such words, and a number has no dot in it.
-/

namespace Gsnet.Control

open Go Lib

/-- A text that is one word. -/
def IsWord (w : GoString) : Prop := NoSpace w ∧ w ≠ []

instance (w : GoString) : Decidable (IsWord w) := inferInstanceAs (Decidable (_ ∧ _))

theorem isAsciiSpace_digit : ∀ d, d < 10 → isAsciiSpace (digit d) = false := by decide

theorem isWord_formatUint (n : Nat) : IsWord (formatUint n) := by
  refine ⟨noSpace_ascii fun c hc => ⟨formatUint_ascii n c hc, ?_⟩, formatUint_ne_nil n⟩
  obtain ⟨d, hd, rfl⟩ := formatUint_digits n c hc
  exact isAsciiSpace_digit d hd

theorem mem_formatInt {i : Int64} {c : UInt8} (h : c ∈ formatInt i) :
    c = 0x2D ∨ c ∈ formatUint i.toInt.natAbs := by
  unfold formatInt at h
  split at h
  · exact List.mem_cons.mp h
  · exact .inr h

theorem formatInt_ne_nil (i : Int64) : formatInt i ≠ [] := by
  unfold formatInt
  split
  · exact List.cons_ne_nil _ _
  · exact formatUint_ne_nil _

theorem formatInt_plain {i : Int64} {c : UInt8} (h : c ∈ formatInt i) :
    c < 0x80 ∧ isAsciiSpace c = false ∧ c ≠ 0x2E := by
  have hdigit : ∀ d, d < 10 →
      digit d < 0x80 ∧ isAsciiSpace (digit d) = false ∧ digit d ≠ 0x2E := by decide
  rcases mem_formatInt h with rfl | hc
  · decide
  · obtain ⟨d, hd, rfl⟩ := formatUint_digits _ c hc
    exact hdigit d hd

theorem isWord_formatInt (i : Int64) : IsWord (formatInt i) :=
  ⟨noSpace_ascii fun _ hc => ⟨(formatInt_plain hc).1, (formatInt_plain hc).2.1⟩,
    formatInt_ne_nil i⟩

theorem atoi_formatInt (i : Int64) (err : GoString → ProtocolError) :
    atoi (formatInt i) err = .ok i := by
  rw [atoi, parseInt_formatInt]

theorem isWord_version (g : Greeting) : IsWord g.version := by
  refine ⟨noSpace_ascii fun c hc => ?_, by simp [Greeting.version]⟩
  rcases List.mem_append.mp hc with hc | hc
  · exact ⟨(formatInt_plain hc).1, (formatInt_plain hc).2.1⟩
  · rcases List.mem_cons.mp hc with rfl | hc
    · decide
    · exact ⟨(formatInt_plain hc).1, (formatInt_plain hc).2.1⟩

theorem cut_version (g : Greeting) :
    cut 0x2E g.version = (formatInt g.major, some (formatInt g.minor)) :=
  cut_append (fun hc => (formatInt_plain hc).2.2 rfl) _

theorem trimmed_words {k : GoString} {ks : List GoString} (h : ∀ w ∈ k :: ks, IsWord w) :
    Trimmed (k ++ ks.flatMap (0x20 :: ·)) := by
  induction ks generalizing k with
  | nil =>
      rw [List.flatMap_nil, List.append_nil]
      exact (h k List.mem_cons_self).1.trimmed
  | cons k' ks ih =>
      obtain ⟨hk, hrest⟩ := List.forall_mem_cons.mp h
      have hne : k' ++ ks.flatMap (0x20 :: ·) ≠ [] := by
        simp [(hrest k' List.mem_cons_self).2]
      have hmid : ∀ b ∈ [(0x20 : UInt8)], b < 0x80 := by
        intro b hb
        rw [List.mem_singleton.mp hb]
        decide
      have hjoin := hk.1.trimmed.join hk.2 (ih hrest) hne hmid (by simp)
      simpa using hjoin

/-- The end of the line is white space. -/
theorem trimSpace_line {k : GoString} {ks : List GoString} (h : ∀ w ∈ k :: ks, IsWord w) :
    trimSpace (k ++ ks.flatMap (0x20 :: ·) ++ [0x0A]) = k ++ ks.flatMap (0x20 :: ·) :=
  trimSpace_append_space (trimmed_words h) (by simp [(h k List.mem_cons_self).2]) (by decide)
    (by decide)

/-! ## The three lines -/

theorem decodeMessage_encodeMessage {t : Int64} {args : List GoString}
    (hargs : ∀ a ∈ args, IsWord a) :
    ∃ line, encodeMessage t args = line ++ [0x0A] ∧ decodeMessage line = .ok ⟨18, t, args⟩ := by
  have hwords : ∀ w ∈ formatUint classRequest :: formatInt t :: args, IsWord w :=
    List.forall_mem_cons.mpr ⟨isWord_formatUint _,
      List.forall_mem_cons.mpr ⟨isWord_formatInt t, hargs⟩⟩
  have hclass : atoi (formatUint classRequest) .invalidClass = .ok 18 := by decide +kernel
  refine ⟨formatUint classRequest ++ (formatInt t :: args).flatMap (0x20 :: ·), ?_, ?_⟩
  · simp [encodeMessage]
  · rw [decodeMessage, fields_words hwords]
    simp only [hclass, atoi_formatInt, ok_bind]
    rfl

theorem parseGreeting_encode {g : Greeting} (hname : IsWord g.name) :
    parseGreeting (trimSpace g.encode) = .ok g := by
  have hwords : ∀ w ∈ [formatUint classGreeting, g.name, g.version], IsWord w := by
    simp [isWord_formatUint, hname, isWord_version]
  have hline : g.encode
      = formatUint classGreeting ++ [g.name, g.version].flatMap (0x20 :: ·) ++ [0x0A] := by
    simp [Greeting.encode]
  have hzero : formatUint classGreeting = str "0" := by decide +kernel
  rw [hline, trimSpace_line hwords, parseGreeting, fields_words hwords]
  simp only [hzero, cut_version, atoi_formatInt, ok_bind]
  rfl

theorem parsePIDFile_encode {f : PIDFile} (hcookie : IsWord f.cookie) :
    parsePIDFile f.encode = .ok f := by
  have hwords : ∀ w ∈ [formatInt f.pid, f.cookie], IsWord w := by
    simp [isWord_formatInt, hcookie]
  have hline : f.encode = formatInt f.pid ++ [f.cookie].flatMap (0x20 :: ·) ++ [0x0A] := by
    simp [PIDFile.encode]
  have hbreak : 0x0A ∉ formatInt f.pid ++ [f.cookie].flatMap (0x20 :: ·) := by
    have hpid := (isWord_formatInt f.pid).1.notMem (a := 0x0A) (by decide)
    have hcookie := hcookie.1.notMem (a := 0x0A) (by decide)
    simp [hpid, hcookie]
  rw [parsePIDFile, hline, trimSpace_line hwords, cut_of_notMem hbreak, fields_words hwords]
  simp only [atoi_formatInt, ok_bind]
  rfl

/--
**What is written to the control socket and to the PID file is read back**: a request
with any number of arguments, a greeting, and a PID with its cookie.
-/
theorem control_lines_read_back :
    (∀ (t : Int64) (args : List GoString), (∀ a ∈ args, IsWord a) →
        ∃ line, encodeMessage t args = line ++ [0x0A] ∧ decodeMessage line = .ok ⟨18, t, args⟩)
      ∧ (∀ g : Greeting, IsWord g.name → parseGreeting (trimSpace g.encode) = .ok g)
      ∧ ∀ f : PIDFile, IsWord f.cookie → parsePIDFile f.encode = .ok f :=
  ⟨fun _ _ hargs => decodeMessage_encodeMessage hargs, fun _ hname => parseGreeting_encode hname,
    fun _ hcookie => parsePIDFile_encode hcookie⟩

/-- A word need not be ASCII, and a number may be negative. -/
theorem control_lines_read_back_sample :
    (∃ line, encodeMessage 11 [str "b", str "é"] = line ++ [0x0A]
        ∧ decodeMessage line = .ok ⟨18, 11, [str "b", str "é"]⟩)
      ∧ parseGreeting (trimSpace (Greeting.mk (str "é") 17 (-1)).encode)
        = .ok ⟨str "é", 17, -1⟩
      ∧ parsePIDFile (PIDFile.mk 1234 (str "abc")).encode = .ok ⟨1234, str "abc"⟩ := by
  obtain ⟨hmessage, hgreeting, hpid⟩ := control_lines_read_back
  have hwords : ∀ a ∈ [str "b", str "é"], IsWord a := by decide +kernel
  exact ⟨hmessage 11 _ hwords, hgreeting ⟨str "é", 17, -1⟩ (hwords _ (by simp)),
    hpid ⟨1234, str "abc"⟩ (by decide +kernel)⟩

end Gsnet.Control
