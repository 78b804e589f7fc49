import Gsnet.Control.Session
import Gsnet.Gossip.Wire
import Gsnet.Proof.ControlLines

/-!
# What a control session does

Nothing is done for a client before the line with the cookie, and after it the daemon
does what the well-formed requests say, one after the other, whatever else is sent.

For `gsnet` itself the way to the daemon goes through the PID file and the greeting.
The greeting is a line of words and the name of the node is one of them, so the
commands work exactly for the nodes whose name is a single word. `load` takes any.
-/

namespace Gsnet.Control

open Go Daemon Gossip Lib

/-! ## Words and blanks -/

/-- A blank ends a word, and what follows it does not reach back. -/
theorem fieldsFrom_append (skip : Nat) (word s t : GoString) (h : skip ≤ s.length) :
    fieldsFrom skip word (s ++ 0x20 :: t) = fieldsFrom skip word s ++ fields t := by
  induction s generalizing skip word with
  | nil =>
      obtain rfl : skip = 0 := by simpa using h
      show (if word = [] then fields t else word :: fields t)
        = (if word = [] then [] else [word]) ++ fields t
      split <;> rfl
  | cons a s ih =>
      rw [List.cons_append, fieldsFrom, fieldsFrom]
      by_cases hskip : 0 < skip
      · rw [if_pos hskip, if_pos hskip]
        exact ih _ _ (by rw [List.length_cons] at h; omega)
      · rw [if_neg hskip, if_neg hskip]
        rcases spaceLen_cases (a :: s) with hzero | ⟨w, u, hs, hlen, hne, hall, -⟩
        · have happ := spaceLen_append_ascii hzero (by simp) (a := 0x20) (by decide) t
          rw [List.cons_append] at happ
          rw [hzero, happ]
          exact ih 0 _ (Nat.zero_le _)
        · -- the white space is all there before the blank
          have happ : spaceLen (a :: (s ++ 0x20 :: t)) = w.length := by
            rw [← List.cons_append, hs, List.append_assoc]
            exact hall _
          have hpos : 0 < w.length := List.length_pos_of_ne_nil hne
          have hle : w.length ≤ (a :: s).length := by rw [hs]; simp
          obtain ⟨n, hn⟩ : ∃ n, w.length = n + 1 := ⟨w.length - 1, by omega⟩
          have hns : n ≤ s.length := by rw [List.length_cons] at hle; omega
          rw [hlen, happ, hn]
          show (if word = [] then fieldsFrom n [] (s ++ 0x20 :: t)
            else word :: fieldsFrom n [] (s ++ 0x20 :: t)) = _
          rw [ih n [] hns]
          split <;> rfl

theorem fields_append (s t : GoString) : fields (s ++ 0x20 :: t) = fields s ++ fields t :=
  fieldsFrom_append 0 [] s t (Nat.zero_le _)

example : fields (str "a b") = fields (str "a") ++ fields (str "b") := by decide +kernel

theorem fields_word {w : GoString} (h : IsWord w) : fields w = [w] := by
  simpa using @fields_words w [] (List.forall_mem_singleton.mpr h)

/-! ## The lines of a session -/

section Lines

variable {σ : Type} (srv : Server σ)

/-- The name stands between two blanks of the greeting. -/
theorem fields_greeting :
    fields (trimSpace srv.greeting) = str "0" :: (fields srv.nodeName ++ [str "1.0"]) := by
  have hone : (str "1.0").reverse = str "0.1" := by decide +kernel
  have hzero : (str "0").reverse = str "0" := by decide +kernel
  have hline : srv.greeting
      = str "0" ++ 0x20 :: (srv.nodeName ++ 0x20 :: str "1.0") ++ [0x0A] := by
    have hclass : formatUint classGreeting = str "0" := by decide +kernel
    have hversion : formatInt 1 ++ 0x2E :: formatInt 0 = str "1.0" := by decide +kernel
    unfold Server.greeting Greeting.encode Greeting.version
    rw [hversion, hclass]
    simp
  have htrimmed : Trimmed (str "0" ++ 0x20 :: (srv.nodeName ++ 0x20 :: str "1.0")) := by
    refine ⟨spaceLen_append_ascii (by decide) (by decide) (by decide) _, ?_⟩
    rw [List.reverse_append, List.reverse_cons, List.reverse_append, List.reverse_cons, hone,
      List.append_assoc, List.append_assoc, List.append_assoc]
    exact lastSpaceLen_append_ascii (by decide +kernel) (by decide) (by decide) _
  rw [hline, trimSpace_append_space htrimmed (List.append_ne_nil_of_right_ne_nil _ (by simp))
    (by decide) (by decide), fields_append, fields_append]
  rw [fields_word (w := str "0") (by decide +kernel),
    fields_word (w := str "1.0") (by decide +kernel)]
  rfl

/-- A name of one word is what the client takes the node to be called. -/
theorem parseGreeting_of_word {w : GoString} (h : fields srv.nodeName = [w]) :
    parseGreeting (trimSpace srv.greeting) = .ok ⟨w, 1, 0⟩ := by
  have hcut : cut 0x2E (str "1.0") = (str "1", some (str "0")) := by decide +kernel
  have hone : atoi (str "1") .badNumber = .ok 1 := by decide +kernel
  have hzero : atoi (str "0") .badNumber = .ok 0 := by decide +kernel
  rw [parseGreeting, fields_greeting, h]
  simp only [List.cons_append, List.nil_append, ne_eq, not_true_eq_false, if_false, hcut, hone,
    hzero, ok_bind]
  rfl

theorem parseGreeting_of_words (h : (fields srv.nodeName).length ≠ 1) :
    parseGreeting (trimSpace srv.greeting) = .error (.notGreeting (trimSpace srv.greeting)) := by
  rw [parseGreeting, fields_greeting]
  split
  · rename_i w v heq
    -- three words leave one for the name
    have hlen := congrArg List.length heq
    simp only [List.length_cons, List.length_append, List.length_nil] at hlen
    omega
  · rfl

theorem readString_greeting (h : 0x0A ∉ srv.nodeName) (later : GoString) :
    readString (srv.greeting ++ later) = some (srv.greeting, later) := by
  have hclass := (isWord_formatUint classGreeting).1.notMem (a := 0x0A) (by decide)
  have hversion := (isWord_version ⟨srv.nodeName, 1, 0⟩).1.notMem (a := 0x0A) (by decide)
  unfold Server.greeting Greeting.encode
  rw [List.append_assoc _ [0x0A]]
  exact readString_line (by simp [hclass, hversion, h]) later

/-- A number is read up to the blank after it. -/
theorem scanNumber_formatInt (i : Int64) {rest : GoString}
    (h : rest = [] ∨ ∃ t, rest = 0x20 :: t) :
    scanNumber (formatInt i ++ rest) = some (i, rest) := by
  have hspace : spaceLen (formatInt i ++ rest) = 0 := by
    have hword := (isWord_formatInt i).1.spaceLen
    rcases h with rfl | ⟨t, rfl⟩
    · rwa [List.append_nil]
    · exact spaceLen_append_ascii hword (formatInt_ne_nil i) (by decide) t
  -- behind the sign, if there is one, come the digits and nothing but them
  obtain ⟨sign, digits, hi, hsign, hdigits, hne⟩ : ∃ sign digits : GoString,
      formatInt i = sign ++ digits ∧ (sign = [] ∨ sign = [0x2D])
        ∧ (∀ c ∈ digits, isDigit c = true ∧ c ≠ 0x2B ∧ c ≠ 0x2D) ∧ digits ≠ [] := by
    have hall : ∀ c ∈ formatUint i.toInt.natAbs, isDigit c = true ∧ c ≠ 0x2B ∧ c ≠ 0x2D := by
      intro c hc
      obtain ⟨d, hd, rfl⟩ := formatUint_digits _ c hc
      obtain ⟨hdigit, -, hminus, hplus⟩ := digit_facts d hd
      exact ⟨hdigit, hplus, hminus⟩
    unfold formatInt
    split
    · exact ⟨[0x2D], _, rfl, .inr rfl, hall, formatUint_ne_nil _⟩
    · exact ⟨[], _, rfl, .inl rfl, hall, formatUint_ne_nil _⟩
  have hrest : ∀ c, rest.head? = some c → isDigit c = false := by
    intro c hc
    rcases h with rfl | ⟨t, rfl⟩
    · cases hc
    · obtain rfl : (0x20 : UInt8) = c := by simpa using hc
      decide
  have htakeSign : (formatInt i ++ rest).takeWhile (fun c => c = 0x2B || c = 0x2D) = sign := by
    obtain ⟨c, digits, rfl⟩ := List.exists_cons_of_ne_nil hne
    obtain ⟨-, hplus, hminus⟩ := hdigits c List.mem_cons_self
    rw [hi]
    rcases hsign with rfl | rfl <;> simp [hplus, hminus]
  have htakeDigits : (digits ++ rest).takeWhile isDigit = digits := by
    rw [List.takeWhile_append_of_pos fun c hc => (hdigits c hc).1]
    cases rest with
    | nil => simp
    | cons c t => simp [hrest c rfl]
  unfold scanNumber
  simp only [trimLeftFrom_of_not_space hspace, htakeSign]
  rw [hi, List.append_assoc, List.drop_left, htakeDigits, ← hi, parseInt_formatInt,
    ← List.append_assoc, ← List.length_append, List.drop_left]
  rfl

theorem scanAck_ack : scanAck (trimSpace srv.ack) = some (4, 0, srv.pid) := by
  have hwords : ∀ w ∈ [formatInt 4, formatInt 0, formatInt srv.pid], IsWord w := by
    simp [isWord_formatInt]
  have hline : srv.ack
      = formatInt 4 ++ [formatInt 0, formatInt srv.pid].flatMap (0x20 :: ·) ++ [0x0A] := by
    have hfour : str "4 0 " = formatInt 4 ++ 0x20 :: formatInt 0 ++ [0x20] := by decide +kernel
    unfold Server.ack
    rw [hfour]
    simp
  have hblank : ∀ t : GoString, scanBlank (0x20 :: t) = some (0x20 :: t) :=
    fun t => if_pos (.inr Nat.one_ne_zero)
  have hskip : ∀ (i : Int64) (t : GoString), t = [] ∨ (∃ u, t = 0x20 :: u) →
      scanNumber (0x20 :: (formatInt i ++ t)) = some (i, t) := fun i t ht => by
    rw [← scanNumber_formatInt i ht]
    rfl
  rw [hline, trimSpace_line hwords]
  simp only [List.flatMap_cons, List.flatMap_nil, List.append_nil, List.cons_append, scanAck]
  rw [scanNumber_formatInt 4 (.inr ⟨_, rfl⟩)]
  simp only [Option.bind_eq_bind, Option.bind_some, hblank]
  rw [hskip 0 _ (.inr ⟨_, rfl⟩)]
  simp only [Option.bind_some, hblank]
  have hlast := hskip srv.pid [] (.inl rfl)
  rw [List.append_nil] at hlast
  rw [hlast]
  rfl

end Lines

/-! ## What the daemon does -/

section Sessions

variable {σ : Type} (srv : Server σ)

/-- The request in a line, if it is one. -/
def request (line : GoString) : Option Message :=
  match decodeMessage (trimSpace line) with
  | .ok m => if m.messageClass = 18 then some m else none
  | .error _ => none

/-- What a client asks for that has sent this much: nothing before it has shown the cookie. -/
def requests (cookie input : GoString) : List Message :=
  match readString input with
  | none => []
  | some (first, rest) =>
    match authenticate cookie (trimSpace first) with
    | .error _ => []
    | .ok () => (linesFrom [] rest).filterMap request

/-- A request is met with what the handler does, as long as there is a process. -/
def serve (f : Handler σ) (s : σ) (m : Message) : σ :=
  if srv.gone s then s else (f s m).1

variable {srv}

theorem answer_fst {f : Handler σ} (h : srv.handler = some f) (s : σ) (line : GoString) :
    (srv.answer s line).1 = (request line).elim s (serve srv f s) := by
  unfold Server.answer request serve
  by_cases hgone : srv.gone s = true
  · -- nothing changes any more, so the two agree whatever the line is
    simp only [hgone, true_or, if_true]
    split
    · split <;> rfl
    · rfl
  · by_cases hempty : trimSpace line = []
    · have hshort : decodeMessage [] = .error (.shortMessage []) := rfl
      simp [hempty, hshort]
    · rw [if_neg (by simp [hgone, hempty])]
      cases decodeMessage (trimSpace line) with
      | error e => rfl
      | ok m =>
          by_cases hclass : m.messageClass = 18
          · simp only [hclass, h, hgone, ne_eq, not_true_eq_false, if_false, if_true, Option.elim]
            generalize f s m = r
            obtain ⟨s', out, err⟩ := r
            cases err <;> rfl
          · simp [hclass]

/-- What is written comes on top of what was written. -/
theorem answers_append (s : σ) (ls ls' : List GoString) :
    srv.answers s (ls ++ ls')
      = ((srv.answers (srv.answers s ls).1 ls').1,
        (srv.answers s ls).2 ++ (srv.answers (srv.answers s ls).1 ls').2) := by
  have hfold : ∀ (ls : List GoString) (s : σ) (out : GoString),
      ls.foldl (fun acc line =>
        let r := srv.answer acc.1 line
        (r.1, acc.2 ++ r.2)) (s, out) = ((srv.answers s ls).1, out ++ (srv.answers s ls).2) := by
    intro ls
    induction ls with
    | nil => exact fun s out => by simp [Server.answers]
    | cons l ls ih =>
        intro s out
        unfold Server.answers
        rw [List.foldl_cons, List.foldl_cons, ih, ih]
        simp
  unfold Server.answers
  rw [List.foldl_append]
  exact hfold ls' _ _

theorem answers_fst {f : Handler σ} (h : srv.handler = some f) (s : σ) (lines : List GoString) :
    (srv.answers s lines).1 = (lines.filterMap request).foldl (serve srv f) s := by
  induction lines using List.reverseRecOn with
  | nil => rfl
  | append_singleton lines line ih =>
      rw [answers_append, List.filterMap_append, List.foldl_append, ← ih]
      show (srv.answer (srv.answers s lines).1 line).1 = _
      rw [answer_fst h]
      cases hreq : request line <;> simp [hreq]

theorem greeting_prefix_handle (s : σ) (input : GoString) :
    srv.greeting <+: (srv.handle s input).2 := by
  unfold Server.handle
  split
  · exact List.prefix_rfl
  · split
    · exact List.prefix_rfl
    · exact (List.prefix_append _ _).trans (List.prefix_append _ _)

theorem handle_mono (s : σ) {part input : GoString} (h : part <+: input) :
    (srv.handle s part).2 <+: (srv.handle s input).2 := by
  obtain ⟨later, rfl⟩ := h
  cases hline : readString part with
  | none =>
      have hpart : (srv.handle s part).2 = srv.greeting := by simp only [Server.handle, hline]
      rw [hpart]
      exact greeting_prefix_handle s _
  | some line =>
      obtain ⟨first, rest⟩ := line
      simp only [Server.handle, hline, readString_append hline later]
      cases authenticate srv.cookie (trimSpace first) with
      | error e => exact List.prefix_rfl
      | ok u =>
          obtain ⟨more, hmore⟩ := linesFrom_mono [] (List.prefix_append rest later)
          show _ ++ _ <+: _ ++ _
          rw [← hmore, answers_append]
          exact List.prefix_append_right_inj _ |>.mpr (List.prefix_append _ _)

theorem authenticate_eq_ok {cookie line : GoString} :
    authenticate cookie line = .ok ()
      ↔ ∃ more, fields line = str "0" :: (0x5E :: cookie) :: more := by
  unfold authenticate
  constructor
  · intro h
    split at h
    · rename_i f₀ f₁ more heq
      split at h
      · cases h
      · rename_i hzero
        split at h
        · split at h
          · rename_i given hcookie
            exact ⟨more, by rw [heq, not_not.mp hzero, hcookie]⟩
          · cases h
        · cases h
    · cases h
  · rintro ⟨more, hmore⟩
    rw [hmore]
    simp

example : authenticate (str "c") (str "0 ^c 0") = .ok () := by decide +kernel

/--
**A session does what its requests say, in their order, and nothing else.** Before the
line with the cookie there is none. All that is a matter of the bytes sent, however they
arrive: what is written for the first part of them stays in front of what is written for
all.
-/
theorem session_serves_requests (srv : Server σ) (s : σ) (input : GoString) :
    (∀ f, srv.handler = some f →
        (srv.handle s input).1 = (requests srv.cookie input).foldl (serve srv f) s)
      ∧ ((¬ ∃ first rest more, readString input = some (first, rest)
          ∧ fields (trimSpace first) = str "0" :: (0x5E :: srv.cookie) :: more) →
        srv.handle s input = (s, srv.greeting))
      ∧ ∀ part, part <+: input → (srv.handle s part).2 <+: (srv.handle s input).2 := by
  refine ⟨fun f h => ?_, ?_, fun _ hpart => handle_mono s hpart⟩
  · unfold Server.handle requests
    cases readString input with
    | none => rfl
    | some line =>
        obtain ⟨first, rest⟩ := line
        dsimp only
        cases authenticate srv.cookie (trimSpace first) with
        | error e => rfl
        | ok u => exact answers_fst h s _
  · intro hnot
    unfold Server.handle
    cases hline : readString input with
    | none => rfl
    | some line =>
        obtain ⟨first, rest⟩ := line
        dsimp only
        cases hauth : authenticate srv.cookie (trimSpace first) with
        | error e => rfl
        | ok u =>
            obtain ⟨more, hmore⟩ := authenticate_eq_ok.mp hauth
            exact absurd ⟨first, rest, more, hline, hmore⟩ hnot

/-- A server that counts, met with a blank line, two requests and a line of another class. -/
def countingServer : Server Nat where
  nodeName := str "a"
  cookie := str "c"
  pid := 7
  handler := some fun n m => (n + m.type.toInt.toNat, Server.reply m.type (str "0"), none)
  gone _ := false
  errorText _ := []

theorem session_serves_requests_counting :
    (countingServer.handle 0 (str "0 ^c 0\n\n18 2\n17 8\n18 5\n18 9")).1 = 7
      ∧ countingServer.handle 0 (str "0 ^b 0\n18 2\n") = (0, str "0 a 1.0\n") := by
  have hgood := (session_serves_requests countingServer 0
    (str "0 ^c 0\n\n18 2\n17 8\n18 5\n18 9")).1 _ rfl
  have hbad := (session_serves_requests countingServer 0 (str "0 ^b 0\n18 2\n")).2.1
  refine ⟨hgood.trans (by decide +kernel), (hbad ?_).trans (by decide +kernel)⟩
  rintro ⟨first, rest, more, hline, hmore⟩
  have hread : readString (str "0 ^b 0\n18 2\n") = some (str "0 ^b 0\n", str "18 2\n") := by
    decide +kernel
  obtain ⟨rfl, rfl⟩ : str "0 ^b 0\n" = first ∧ str "18 2\n" = rest := by
    simpa using hread.symm.trans hline
  have hfields : fields (trimSpace (str "0 ^b 0\n")) = [str "0", str "^b", str "0"] := by
    decide +kernel
  rw [hfields] at hmore
  have hcookie : str "^b" = 0x5E :: countingServer.cookie := by
    simpa using (List.cons.inj (List.cons.inj hmore).2).1
  exact absurd hcookie (by decide)

end Sessions

/-! ## What `gsnet` does -/

section Commands

variable {σ : Type} {srv : Server σ}

/-- The line of the client that shows the cookie. -/
def opening (cookie : GoString) : GoString := str "0 ^" ++ cookie ++ str " 0\n"

theorem isWord_caret {cookie : GoString} (h : IsWord cookie) : IsWord (0x5E :: cookie) := by
  refine ⟨?_, List.cons_ne_nil _ _⟩
  intro w hw hin
  rcases List.infix_cons_iff.mp hin with hpre | hin
  · -- white space would begin with the caret
    obtain ⟨c, w, rfl⟩ := List.exists_cons_of_ne_nil hw.1
    obtain rfl : c = 0x5E := (List.cons_prefix_cons.mp hpre).1
    rcases hw.bytes with hone | hhigh
    · obtain rfl : w = [] := by simpa using hone
      exact absurd (isSpace_singleton.mp hw) (by decide)
    · exact absurd (hhigh 0x5E List.mem_cons_self) (by decide)
  · exact h.1 w hw hin

theorem handle_opening (h : IsWord srv.cookie) (s : σ) (rest : GoString) :
    srv.handle s (opening srv.cookie ++ rest)
      = ((srv.answers s (linesFrom [] rest)).1,
        srv.greeting ++ srv.ack ++ (srv.answers s (linesFrom [] rest)).2) := by
  have hwords : ∀ w ∈ [str "0", 0x5E :: srv.cookie, str "0"], IsWord w := by
    simp only [List.forall_mem_cons, isWord_caret h, true_and]
    decide +kernel
  have hline : opening srv.cookie
      = str "0" ++ [0x5E :: srv.cookie, str "0"].flatMap (0x20 :: ·) ++ [0x0A] := by
    have hstart : str "0 ^" = str "0" ++ [0x20, 0x5E] := by decide
    have hend : str " 0\n" = 0x20 :: str "0" ++ [0x0A] := by decide
    unfold opening
    rw [hstart, hend]
    simp
  have hbreak : 0x0A ∉ str "0" ++ [0x5E :: srv.cookie, str "0"].flatMap (0x20 :: ·) := by
    have hzero : 0x0A ∉ str "0" := by decide
    have hcookie := h.1.notMem (a := 0x0A) (by decide)
    simp [hzero, hcookie]
  have hread : readString (opening srv.cookie ++ rest) = some (opening srv.cookie, rest) := by
    rw [hline, List.append_assoc _ [0x0A]]
    exact readString_line hbreak rest
  have hauth : authenticate srv.cookie (trimSpace (opening srv.cookie)) = .ok () := by
    rw [authenticate_eq_ok, hline, trimSpace_line hwords, fields_words hwords]
    exact ⟨_, rfl⟩
  simp only [Server.handle, hread, hauth]

theorem readString_ack (srv : Server σ) (later : GoString) :
    readString (srv.ack ++ later) = some (srv.ack, later) := by
  have hstart : 0x0A ∉ str "4 0 " := by decide
  have hpid := (isWord_formatInt srv.pid).1.notMem (a := 0x0A) (by decide)
  unfold Server.ack
  rw [List.append_assoc _ [0x0A]]
  exact readString_line (by simp [hstart, hpid]) later

section Dialing

variable (hname : 0x0A ∉ srv.nodeName) (hcookie : IsWord srv.cookie) (s : σ)

include hname in
theorem readLine_greeting :
    readLine (fun sent => (srv.handle s sent).2) [] 0
      = .ok (srv.greeting, srv.greeting.length) := by
  have hread := readString_greeting srv hname []
  rw [List.append_nil] at hread
  have hnothing : (srv.handle s []).2 = srv.greeting := rfl
  simp only [readLine, hnothing, List.drop_zero, hread, Nat.zero_add]

include hname in
/-- A greeting of more words ends the attempt before anything is sent. -/
theorem dial_of_words (h : (fields srv.nodeName).length ≠ 1) (cookie : GoString) :
    dial (fun sent => (srv.handle s sent).2) cookie
      = .error (.greeting (.notGreeting (trimSpace srv.greeting))) := by
  unfold dial
  rw [readLine_greeting hname, ok_bind]
  dsimp only
  rw [parseGreeting_of_words srv h]
  rfl

include hname hcookie in
theorem dial_of_word {w : GoString} (h : fields srv.nodeName = [w]) :
    dial (fun sent => (srv.handle s sent).2) srv.cookie
      = .ok ⟨opening srv.cookie, srv.greeting.length + srv.ack.length, w, srv.pid⟩ := by
  have hopen := handle_opening hcookie s []
  rw [List.append_nil] at hopen
  have hack : readLine (fun sent => (srv.handle s sent).2) (opening srv.cookie)
      srv.greeting.length = .ok (srv.ack, srv.greeting.length + srv.ack.length) := by
    have hread := readString_ack srv []
    rw [List.append_nil] at hread
    have hnone : (srv.answers s (linesFrom [] [])).2 = [] := rfl
    simp only [readLine, hopen, hnone, List.append_nil, List.drop_left, hread]
  unfold dial
  rw [readLine_greeting hname, ok_bind]
  dsimp only
  rw [parseGreeting_of_word srv h]
  show (do
    let r ← readLine _ (opening srv.cookie) srv.greeting.length
    _) = _
  rw [hack, ok_bind]
  dsimp only
  rw [scanAck_ack]
  rfl

include hcookie in
/-- `dialControl` finds the cookie in the PID file, and the server behind the socket. -/
theorem dialControl_eq {fs : FileSystem} {p : Paths} {runDir : GoString}
    {sockets : GoString → Option FarEnd}
    (hpid : fs.readFile (p.pidFile runDir) = .ok (PIDFile.encode ⟨srv.pid, srv.cookie⟩))
    (hsock : sockets (p.controlSocket runDir) = some fun sent => (srv.handle s sent).2) :
    dialControl fs p runDir sockets = (do
      let c ← wrap CommandError.client (dial (fun sent => (srv.handle s sent).2) srv.cookie)
      return (fun sent => (srv.handle s sent).2, c)) := by
  unfold dialControl
  rw [hpid]
  show (do let pf ← wrap CommandError.pidFile (parsePIDFile _); _) = _
  rw [parsePIDFile_encode hcookie, hsock]
  rfl

end Dialing

theorem ofCode_code (t : RequestType) : RequestType.ofCode (Int64.ofNat t.code) = some t := by
  cases t <;> rfl

/-- A command of `cmdSimple` is answered with one line. -/
theorem answer_simple [Ed25519] [Curve25519] [PKCS8] {x : Circumstances}
    {nodeName cookie : GoString} {pid : Int64} {errorText : ProtocolError → GoString}
    {d : Controlled} (hrun : d.exited = false)
    {name line : GoString} {t : RequestType} (ht : simpleRequest name = some t)
    (hline : decodeMessage (trimSpace line) = .ok ⟨18, Int64.ofNat t.code, []⟩) :
    (daemonServer x nodeName cookie pid errorText).answer d line
        = ((controlRequest x d ⟨18, Int64.ofNat t.code, []⟩).1,
          (controlRequest x d ⟨18, Int64.ofNat t.code, []⟩).2.1)
      ∧ 0x0A ∈ (controlRequest x d ⟨18, Int64.ofNat t.code, []⟩).2.1 := by
  have hreply : ∀ (n : Int64) (text : GoString), 0x0A ∈ Server.reply n text := by
    simp [Server.reply]
  -- no command leaves an error to be written, and each of them writes one reply
  obtain ⟨hout, herr⟩ : 0x0A ∈ (controlRequest x d ⟨18, Int64.ofNat t.code, []⟩).2.1
      ∧ (controlRequest x d ⟨18, Int64.ofNat t.code, []⟩).2.2 = none := by
    have hcases : t = .stop ∨ t = .reload ∨ t = .retry ∨ t = .purge := by
      unfold simpleRequest at ht
      grind
    rcases hcases with rfl | rfl | rfl | rfl <;> simp only [controlRequest, ofCode_code]
    · exact ⟨hreply _ _, trivial⟩
    · split
      · exact ⟨hreply _ _, rfl⟩
      · exact ⟨hreply _ _, rfl⟩
    · exact ⟨hreply _ _, trivial⟩
    · exact ⟨hreply _ _, trivial⟩
  refine ⟨?_, hout⟩
  have hne : trimSpace line ≠ [] := by
    intro hempty
    rw [hempty] at hline
    cases hline
  unfold Server.answer
  rw [if_neg (by simp [daemonServer, hrun, hne]), hline]
  simp only [daemonServer, ne_eq, not_true_eq_false, if_false]
  generalize controlRequest x d ⟨18, Int64.ofNat t.code, []⟩ = r at herr ⊢
  obtain ⟨d', out, err⟩ := r
  obtain rfl : err = none := herr
  rfl

/-- A request without arguments, as `Send` writes it and as the server reads it. -/
theorem request_read_back (t : Int64) :
    linesFrom [] (encodeMessage t []) = [encodeMessage t []]
      ∧ decodeMessage (trimSpace (encodeMessage t [])) = .ok ⟨18, t, []⟩ := by
  have hwords : ∀ w ∈ [formatUint classRequest, formatInt t], IsWord w := by
    simp [isWord_formatUint, isWord_formatInt]
  have hline : encodeMessage t []
      = formatUint classRequest ++ [formatInt t].flatMap (0x20 :: ·) ++ [0x0A] := by
    simp [encodeMessage]
  have hbreak : 0x0A ∉ formatUint classRequest ++ [formatInt t].flatMap (0x20 :: ·) := by
    have hclass := (isWord_formatUint classRequest).1.notMem (a := 0x0A) (by decide)
    have htype := (isWord_formatInt t).1.notMem (a := 0x0A) (by decide)
    simp [hclass, htype]
  obtain ⟨line, hencode, hdecode⟩ := @decodeMessage_encodeMessage t [] (by simp)
  constructor
  · have hlines := linesFrom_line ⟨_, hline, hbreak⟩ []
    rwa [List.append_nil] at hlines
  · rw [hline, trimSpace_line hwords, List.append_cancel_right (hline.symm.trans hencode)]
    exact hdecode

theorem exists_readString {t : GoString} (h : 0x0A ∈ t) : ∃ l, readString t = some l := by
  obtain ⟨u, v, rfl, hu⟩ := List.eq_append_cons_of_mem h
  exact ⟨_, readString_line hu v⟩

section Results

variable [Ed25519] [Curve25519] [PKCS8] {x : Circumstances} {nodeName cookie : GoString}
variable {pid : Int64} {errorText : ProtocolError → GoString} {d : Controlled} {name : GoString}
variable {t : RequestType}

/-- All that the daemon writes to a command: the last part is what the command waits for. -/
theorem handle_command (hcookie : IsWord cookie) (hrun : d.exited = false)
    (ht : simpleRequest name = some t) :
    (daemonServer x nodeName cookie pid errorText).handle d
        (opening cookie ++ encodeMessage (Int64.ofNat t.code) [])
      = ((controlRequest x d ⟨18, Int64.ofNat t.code, []⟩).1,
        (daemonServer x nodeName cookie pid errorText).greeting
          ++ (daemonServer x nodeName cookie pid errorText).ack
          ++ (controlRequest x d ⟨18, Int64.ofNat t.code, []⟩).2.1) := by
  obtain ⟨hlines, hdecode⟩ := request_read_back (Int64.ofNat t.code)
  have hanswer :=
    (@answer_simple _ _ _ x nodeName cookie pid errorText d hrun name _ t ht hdecode).1
  generalize hsrv : daemonServer x nodeName cookie pid errorText = srv at hanswer ⊢
  obtain rfl : srv.cookie = cookie := by rw [← hsrv]; rfl
  rw [handle_opening hcookie d, hlines]
  show ((srv.answer d _).1, _ ++ ([] ++ (srv.answer d _).2)) = _
  rw [hanswer, List.nil_append]

/--
**`stop`, `reload`, `retry` and `purge` reach the daemon exactly when the name of its node
is one word.** Then the command returns without an error and the daemon has done what its
handler does for that one request. Otherwise the greeting is refused, whatever the cookie,
and nothing has been sent.
-/
theorem command_served_iff {fs : FileSystem} {p : Paths} {runDir : GoString}
    {sockets : GoString → Option FarEnd} (hname : 0x0A ∉ nodeName) (hcookie : IsWord cookie)
    (hrun : d.exited = false)
    (hpid : fs.readFile (p.pidFile runDir) = .ok (PIDFile.encode ⟨pid, cookie⟩))
    (hsock : sockets (p.controlSocket runDir)
      = some fun sent => ((daemonServer x nodeName cookie pid errorText).handle d sent).2)
    (ht : simpleRequest name = some t) :
    ((∃ sent, cmdSimple fs p runDir name sockets = .ok sent
        ∧ ((daemonServer x nodeName cookie pid errorText).handle d sent).1
          = (controlRequest x d ⟨18, Int64.ofNat t.code, []⟩).1)
        ↔ (fields nodeName).length = 1)
      ∧ ((fields nodeName).length ≠ 1 →
        ∃ e, cmdSimple fs p runDir name sockets = .error (.client (.greeting e))) := by
  have hdialed := @dialControl_eq _ (daemonServer x nodeName cookie pid errorText) hcookie d fs p
    runDir sockets hpid hsock
  have hrefused : (fields nodeName).length ≠ 1 →
      ∃ e, cmdSimple fs p runDir name sockets = .error (.client (.greeting e)) := by
    intro hwords
    have hdial := @dial_of_words _ (daemonServer x nodeName cookie pid errorText) hname d hwords
    refine ⟨.notGreeting (trimSpace (daemonServer x nodeName cookie pid errorText).greeting), ?_⟩
    unfold cmdSimple
    rw [ht]
    dsimp only
    rw [hdialed, hdial]
    rfl
  refine ⟨⟨?_, ?_⟩, hrefused⟩
  · rintro ⟨sent, hsent, -⟩
    by_contra hwords
    obtain ⟨e, he⟩ := hrefused hwords
    rw [he] at hsent
    cases hsent
  · intro hone
    obtain ⟨w, hw⟩ := List.length_eq_one_iff.mp hone
    have hdial :=
      @dial_of_word _ (daemonServer x nodeName cookie pid errorText) hname hcookie d w hw
    have hhandle := @handle_command _ _ _ x nodeName cookie pid errorText d name t hcookie hrun ht
    obtain ⟨hlines, hdecode⟩ := request_read_back (Int64.ofNat t.code)
    obtain ⟨l, hread⟩ := exists_readString
      (@answer_simple _ _ _ x nodeName cookie pid errorText d hrun name _ t ht hdecode).2
    refine ⟨opening cookie ++ encodeMessage (Int64.ofNat t.code) [], ?_, by rw [hhandle]⟩
    unfold cmdSimple
    rw [ht]
    dsimp only
    rw [hdialed, hdial]
    show (do
      let r ← wrap CommandError.client (Client.send _ ⟨opening cookie, _, _, _⟩ t [])
      return r.2.sent) = _
    unfold Client.send readLine
    simp only [hhandle]
    rw [← List.length_append, List.drop_left, hread]
    rfl

end Results

section Samples

attribute [local instance] clearEd25519 clearCurve25519 clearPKCS8

def sampleCircumstances : Circumstances where
  clock := ⟨1, fun _ => 1⟩
  dump := ⟨[], [], ⟨[], fun _ => []⟩, []⟩
  adj _ := []
  rounds := 1
  nodes := []
  stats := []
  loadErrorText _ := []

def sampleControlled : Controlled :=
  ⟨.boot samplePaths (.ofFiles []) (sampleLoaded .router) ⟨1, fun _ => 1⟩, false⟩

def sampleServer (nodeName : String) : Server Controlled :=
  daemonServer sampleCircumstances (str nodeName) (str "c") 7 fun _ => []

/-- The PID file of a daemon that runs. -/
def sampleRunDir : FileSystem := .ofFiles [([str "run", str "gsnet.vpn.pid"], str "7 c\n")]

/-- A node named by one word can be stopped, and one named by two cannot. -/
theorem command_served_one_word :
    (∃ sent, cmdSimple sampleRunDir samplePaths (str "/run") (str "stop")
          (fun _ => some fun sent => ((sampleServer "a").handle sampleControlled sent).2) = .ok sent
        ∧ ((sampleServer "a").handle sampleControlled sent).1
          = { sampleControlled with exited := true })
      ∧ ∃ e, cmdSimple sampleRunDir samplePaths (str "/run") (str "stop")
          (fun _ => some fun sent => ((sampleServer "a b").handle sampleControlled sent).2)
        = .error (.client (.greeting e)) := by
  have hpid : sampleRunDir.readFile (samplePaths.pidFile (str "/run"))
      = .ok (PIDFile.encode ⟨7, str "c"⟩) := by decide +kernel
  have hcookie : IsWord (str "c") := by decide +kernel
  have hstop : simpleRequest (str "stop") = some .stop := by decide
  constructor
  · exact (@command_served_iff _ _ _ sampleCircumstances (str "a") (str "c") 7 (fun _ => [])
      sampleControlled _ _ _ _ _ _ (by decide) hcookie rfl hpid rfl hstop).1.mpr (by decide +kernel)
  · exact (@command_served_iff _ _ _ sampleCircumstances (str "a b") (str "c") 7 (fun _ => [])
      sampleControlled _ _ _ _ _ _ (by decide) hcookie rfl hpid rfl hstop).2 (by decide +kernel)

end Samples

end Commands

end Gsnet.Control
