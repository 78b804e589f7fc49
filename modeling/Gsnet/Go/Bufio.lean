import Gsnet.Go.Strings

/-!
# Buffered connections

`bufio.Writer` over a connection, and the lines a `bufio.Reader` at the far end
makes of what arrives. A connection can be lost at any byte. The error of a write
sticks to the writer: from then on it sends nothing, also where the connection
would take more. So what is on the wire is what the writer was given, cut off at
one place, and the lines the far end reads are the first of those that were written.
-/

namespace Gsnet.Go

/-- The sending half of a connection. -/
structure Socket where
  /-- Every byte that was sent. -/
  wire : GoString
  /-- How many more can be sent, once the connection is lost or closed. -/
  room : Option Nat
  deriving DecidableEq

namespace Socket

/-- A connection that has just been made. -/
def fresh : Socket := ⟨[], none⟩

/-- How much of `p` can be sent. -/
def fits (s : Socket) (p : GoString) : Nat := (s.room.map (min p.length)).getD p.length

/-- `Write`: the number of bytes sent, which is short of all of them only with an error. -/
def write (s : Socket) (p : GoString) : Nat × Socket :=
  (s.fits p, ⟨s.wire ++ p.take (s.fits p), s.room.map (· - s.fits p)⟩)

/-- `Close`. -/
def close (s : Socket) : Socket := { s with room := some 0 }

end Socket

/-- `bufio.Writer`, with the connection it writes to. -/
structure Writer where
  /-- `buf[:n]`. -/
  buf : GoString
  /-- `err` is set. -/
  failed : Bool
  sock : Socket
  deriving DecidableEq

namespace Writer

/-- The size `NewWriter` gives the buffer. -/
def size : Nat := 4096

def new (sock : Socket) : Writer := ⟨[], false, sock⟩

def flush (w : Writer) : Writer :=
  if w.failed ∨ w.buf = [] then w
  else
    let (n, sock) := w.sock.write w.buf
    -- what could not be sent stays in the buffer
    ⟨w.buf.drop n, decide (n < w.buf.length), sock⟩

/-- The loop of `Write` when nothing is buffered: what is too large goes out at once. -/
def writeRest (w : Writer) (p : GoString) : Writer :=
  if size < p.length then
    let (n, sock) := w.sock.write p
    ⟨[], decide (n < p.length), sock⟩
  else { w with buf := p }

/-- `Write`; the loop is over after the buffer has been filled up and flushed once. -/
def write (w : Writer) (p : GoString) : Writer :=
  if w.failed then w
  else if w.buf = [] then w.writeRest p
  else
    let room := size - w.buf.length
    if p.length ≤ room then { w with buf := w.buf ++ p }
    else
      let w := { w with buf := w.buf ++ p.take room }.flush
      if w.failed then w else w.writeRest (p.drop room)

/-- `Write` and then, if there was no error, `Flush`: what one holder of the lock does. -/
def send (w : Writer) (p : GoString) : Writer :=
  let w := w.write p
  if w.failed then w else w.flush

/-- Nothing waits in the buffer, unless it never will be sent. -/
def Settled (w : Writer) : Prop := w.buf = [] ∨ w.failed = true

/-- What `send` can do. -/
inductive Sends (w w' : Writer) (p : GoString) : Prop
  | whole : w.failed = false → w'.failed = false → w'.buf = [] →
      w'.sock.wire = w.sock.wire ++ p → Sends w w' p
  /-- The connection is lost on the way. -/
  | cut (t : GoString) : w'.failed = true → t <+: p → t.length < p.length →
      w'.sock.wire = w.sock.wire ++ t → Sends w w' p
  | refused : w.failed = true → w' = w → Sends w w' p

theorem flush_of_empty {w : Writer} (h : w.buf = []) : w.flush = w := by
  unfold flush
  rw [if_pos (.inr h)]

/-- What one write to the connection makes of a text that is on its way. -/
theorem sends_of_write {w w' : Writer} {p : GoString} (hw : w.failed = false)
    (hf : w'.failed = decide (w.sock.fits p < p.length))
    (hs : w'.sock = (w.sock.write p).2) (hb : p.length ≤ w.sock.fits p → w'.buf = []) :
    Sends w w' p := by
  have hwire : w'.sock.wire = w.sock.wire ++ p.take (w.sock.fits p) := by rw [hs]; rfl
  by_cases hlt : w.sock.fits p < p.length
  · refine .cut _ (by rw [hf, decide_eq_true hlt]) (List.take_prefix _ _) ?_ hwire
    rw [List.length_take]
    omega
  · have hall : p.length ≤ w.sock.fits p := Nat.le_of_not_lt hlt
    refine .whole hw (by rw [hf, decide_eq_false hlt]) (hb hall) ?_
    rw [hwire, List.take_of_length_le hall]

/-- **A writer with an empty buffer** sends all of a text, or cuts it off and fails for good. -/
theorem send_cases {w : Writer} (h : w.Settled) {p : GoString} (hp : p ≠ []) :
    Sends w (w.send p) p := by
  by_cases hw : w.failed = true
  · refine .refused hw ?_
    unfold send write
    simp only [if_pos hw]
  · have hbuf : w.buf = [] := h.resolve_right hw
    have hwrite : w.write p = w.writeRest p := by
      unfold write
      rw [if_neg hw, if_pos hbuf]
    have hfalse : w.failed = false := Bool.not_eq_true _ ▸ hw
    unfold send
    simp only [hwrite]
    unfold writeRest
    by_cases hsize : size < p.length
    · -- too large for the buffer: it is out, or has failed, before `Flush`
      rw [if_pos hsize, flush_of_empty rfl, ite_self]
      exact sends_of_write hfalse rfl rfl fun _ => rfl
    · rw [if_neg hsize, if_neg (show ¬ ({ w with buf := p } : Writer).failed = true from hw)]
      unfold flush
      rw [if_neg (show ¬ (w.failed = true ∨ p = []) from fun h => h.elim hw hp)]
      exact sends_of_write hfalse rfl rfl List.drop_eq_nil_of_le

theorem Sends.settled {w w' : Writer} {p : GoString} (h : Sends w w' p) : w'.Settled := by
  rcases h with ⟨-, -, hb, -⟩ | ⟨t, hf, -, -, -⟩ | ⟨hf, rfl⟩
  · exact .inl hb
  · exact .inr hf
  · exact .inr hf

end Writer

/-! ## Lines -/

/-- What `ReadBytes('\n')` delivers, call after call, until the connection ends; `line` is begun. -/
def linesFrom (line : GoString) : GoString → List GoString
  | [] => []
  | c :: t => if c = 0x0A then (line ++ [c]) :: linesFrom [] t else linesFrom (line ++ [c]) t

theorem linesFrom_readString (line input : GoString) :
    linesFrom line input
      = ((readString input).map fun r => (line ++ r.1) :: linesFrom [] r.2).getD [] := by
  induction input generalizing line with
  | nil => rfl
  | cons c t ih =>
      rw [linesFrom, readString]
      by_cases hc : c = 0x0A
      · rw [if_pos hc, if_pos hc]
        rfl
      · rw [if_neg hc, if_neg hc, ih]
        cases readString t <;> simp

/-- **More input only adds lines.** -/
theorem linesFrom_mono {s t : GoString} (line : GoString) (h : s <+: t) :
    linesFrom line s <+: linesFrom line t := by
  induction s generalizing line t with
  | nil => exact List.nil_prefix
  | cons c s ih =>
      obtain ⟨u, rfl⟩ := h
      rw [List.cons_append]
      unfold linesFrom
      split
      · exact List.prefix_cons_inj _ |>.mpr (ih [] (List.prefix_append _ _))
      · exact ih _ (List.prefix_append _ _)

/-- A text that ends in its only newline. -/
def IsLine (l : GoString) : Prop := ∃ t : GoString, l = t ++ [0x0A] ∧ 0x0A ∉ t

theorem IsLine.ne_nil {l : GoString} (h : IsLine l) : l ≠ [] := by
  obtain ⟨t, rfl, -⟩ := h
  simp

/-- Cut short, it has none. -/
theorem IsLine.notMem_of_cut {l t : GoString} (h : IsLine l) (ht : t <+: l)
    (hlt : t.length < l.length) : 0x0A ∉ t := by
  obtain ⟨s, rfl, hs⟩ := h
  obtain ⟨u, hu⟩ := ht
  have hle : t.length ≤ s.length := by
    rw [List.length_append, List.length_singleton] at hlt
    omega
  have hpre : t <+: s := List.prefix_of_prefix_length_le ⟨u, hu⟩ (List.prefix_append _ _) hle
  exact fun hm => hs (hpre.subset hm)

theorem readString_of_notMem {t : GoString} (h : 0x0A ∉ t) : readString t = none := by
  induction t with
  | nil => rfl
  | cons c t ih =>
      rw [List.mem_cons, not_or] at h
      rw [readString, if_neg fun hc => h.1 hc.symm, ih h.2]
      rfl

/-- What comes later is left over. -/
theorem readString_append {input first rest : GoString}
    (h : readString input = some (first, rest)) (later : GoString) :
    readString (input ++ later) = some (first, rest ++ later) := by
  induction input generalizing first with
  | nil => cases h
  | cons c t ih =>
      rw [List.cons_append, readString]
      rw [readString] at h
      split at h
      · obtain ⟨rfl, rfl⟩ : [c] = first ∧ t = rest := by simpa using h
        rw [if_pos ‹_›]
      · rw [if_neg ‹_›]
        obtain ⟨r, hr, heq⟩ := Option.map_eq_some_iff.mp h
        obtain ⟨rfl, rfl⟩ : c :: r.1 = first ∧ r.2 = rest := by simpa using heq
        rw [ih hr]
        rfl

theorem linesFrom_line {l : GoString} (h : IsLine l) (rest : GoString) :
    linesFrom [] (l ++ rest) = l :: linesFrom [] rest := by
  obtain ⟨t, rfl, ht⟩ := h
  have hstep : ∀ line : GoString, linesFrom line (t ++ [0x0A] ++ rest)
      = (line ++ (t ++ [0x0A])) :: linesFrom [] rest := by
    induction t with
    | nil => intro line; rfl
    | cons c t ih =>
        rw [List.mem_cons, not_or] at ht
        intro line
        rw [List.cons_append, List.cons_append, linesFrom, if_neg fun hc => ht.1 hc.symm,
          ih ht.2 (line ++ [c])]
        simp
  exact hstep []

/-- **The lines of lines written one after the other**, with the start of another after them. -/
theorem linesFrom_flatten {ls : List GoString} (h : ∀ l ∈ ls, IsLine l) {tail : GoString}
    (ht : 0x0A ∉ tail) : linesFrom [] (ls.flatten ++ tail) = ls := by
  induction ls with
  | nil =>
      rw [List.flatten_nil, List.nil_append, linesFrom_readString, readString_of_notMem ht]
      rfl
  | cons l ls ih =>
      rw [List.flatten_cons, List.append_assoc, linesFrom_line (h l List.mem_cons_self),
        ih fun l hl => h l (List.mem_cons_of_mem _ hl)]

end Gsnet.Go
