import Gsnet.Go.Strings
import Gsnet.Go.JsonText
import Gsnet.Gossip.Message

/-!
# Envelopes on the wire

What `Broadcast` writes for an envelope, and what `handleGossip` makes of a line.
The payload is a `json.RawMessage`: decoding keeps its bytes as they stood, and
encoding writes them compacted. Every other field is read into a value and
written from it.
-/

namespace Gsnet.Gossip

open Go

/-! ## The two directions -/

/-- `null` for a nil message; an error for one that is no value. -/
def writeRaw (raw : GoString) : Option GoString :=
  if raw = [] then some (str "null") else compact raw

/-- The members an envelope is written with; the signature is tagged `omitempty`. -/
def Envelope.members (e : Envelope) (payload : GoString) : List (GoString × GoString) :=
  [(str "id", quote e.id), (str "origin", quote e.origin), (str "kind", quote e.kind.text),
    (str "ts", formatInt e.ts), (str "payload", payload)]
    ++ if e.signature = [] then [] else [(str "sig", quote (base64Encode e.signature))]

def Envelope.marshal (e : Envelope) : Option GoString :=
  (writeRaw e.payload).map fun payload => writeObject (e.members payload)

/-- The line `Broadcast` writes to every connection. -/
def Envelope.broadcast (e : Envelope) : Option GoString := e.marshal.map (· ++ [0x0A])

/-- One member into the field its name folds to. -/
def Envelope.set (key : GoString) (v : Json) (raw : GoString) (e : Envelope) : Option Envelope :=
  if key = str "ID" then (decodeString e.id v).map fun s => { e with id := s }
  else if key = str "ORIGIN" then (decodeString e.origin v).map fun s => { e with origin := s }
  else if key = str "KIND" then
    (decodeString e.kind.text v).map fun s => { e with kind := Kind.ofText s }
  else if key = str "TS" then (decodeInt e.ts v).map fun t => { e with ts := t }
  else if key = str "PAYLOAD" then some { e with payload := raw }
  else if key = str "SIG" then (decodeBytes e.signature v).map fun s => { e with signature := s }
  else some e

/-- The zero value every line is decoded into. -/
def Envelope.zero : Envelope := ⟨[], [], Kind.ofText [], 0, [], []⟩

def Envelope.setAll (fs : List (GoString × Json × GoString)) (e : Envelope) : Option Envelope :=
  fs.foldlM (fun e f => Envelope.set (foldName f.1) f.2.1 f.2.2 e) e

def Envelope.unmarshal (line : GoString) : Option Envelope :=
  (parseRaw line).bind fun fs => Envelope.zero.setAll fs

/--
One turn of the loop of `handleGossip`: what the next line decodes into, and what
is left to read. `none` when the connection ends first.
-/
def handleGossip (input : GoString) : Option (Option Envelope × GoString) :=
  (readString input).map fun r => (Envelope.unmarshal r.1, r.2)

/-- The envelope the next hop decodes from the line written for this one. -/
def Envelope.hop (e : Envelope) : Option Envelope :=
  (e.broadcast.bind handleGossip).bind fun r => r.1

/-- The envelope as it is after a number of hops. -/
def Envelope.forwarded (e : Envelope) : Nat → Option Envelope
  | 0 => some e
  | n + 1 => (e.forwarded n).bind Envelope.hop

/-! ## What decoding guarantees -/

/-- What is true of every envelope that came from a line. -/
structure Envelope.OnWire (e : Envelope) : Prop where
  id : validUTF8 e.id = true
  origin : validUTF8 e.origin = true
  kind : validUTF8 e.kind.text = true
  /-- Absent, or the text of a value. -/
  payload : e.payload = [] ∨ Spelled (maxNestingDepth - 1) .value e.payload

theorem Envelope.onWire_zero : Envelope.zero.OnWire :=
  ⟨rfl, rfl, by rw [Envelope.zero, Kind.text_ofText]; rfl, .inl rfl⟩

theorem valid_of_decodeString {d : Nat} {old s raw : GoString} {v : Json}
    (h : decodeString old v = some s) (hold : validUTF8 old = true) (hv : RawValue d v raw) :
    validUTF8 s = true := by
  cases v with
  | str x =>
      cases h
      exact hv.valid _ rfl
  | null =>
      cases h
      exact hold
  | _ => cases h

theorem Envelope.OnWire.set {e e' : Envelope} {key raw : GoString} {v : Json}
    (he : e.OnWire) (hv : RawValue (maxNestingDepth - 1) v raw)
    (h : Envelope.set key v raw e = some e') : e'.OnWire := by
  unfold Envelope.set at h
  split at h
  · obtain ⟨s, hs, rfl⟩ := Option.map_eq_some_iff.mp h
    exact ⟨valid_of_decodeString hs he.id hv, he.origin, he.kind, he.payload⟩
  split at h
  · obtain ⟨s, hs, rfl⟩ := Option.map_eq_some_iff.mp h
    exact ⟨he.id, valid_of_decodeString hs he.origin hv, he.kind, he.payload⟩
  split at h
  · obtain ⟨s, hs, rfl⟩ := Option.map_eq_some_iff.mp h
    refine ⟨he.id, he.origin, ?_, he.payload⟩
    rw [Kind.text_ofText]
    exact valid_of_decodeString hs he.kind hv
  split at h
  · obtain ⟨t, -, rfl⟩ := Option.map_eq_some_iff.mp h
    exact ⟨he.id, he.origin, he.kind, he.payload⟩
  split at h
  · cases h
    exact ⟨he.id, he.origin, he.kind, .inr hv.spelled⟩
  split at h
  · obtain ⟨s, -, rfl⟩ := Option.map_eq_some_iff.mp h
    exact ⟨he.id, he.origin, he.kind, he.payload⟩
  · cases h
    exact he

theorem Envelope.OnWire.setAll {fs : List (GoString × Json × GoString)} {e e' : Envelope}
    (he : e.OnWire) (hfs : ∀ f ∈ fs, RawValue (maxNestingDepth - 1) f.2.1 f.2.2)
    (h : e.setAll fs = some e') : e'.OnWire := by
  induction fs generalizing e with
  | nil =>
      cases h
      exact he
  | cons f fs ih =>
      obtain ⟨e₁, h₁, h⟩ := Option.bind_eq_some_iff.mp h
      exact ih (he.set (hfs f List.mem_cons_self) h₁)
        (fun g hg => hfs g (List.mem_cons_of_mem _ hg)) h

/-- **Every decoded envelope** has valid strings and a payload that is a value, if any. -/
theorem Envelope.onWire_of_unmarshal {line : GoString} {e : Envelope}
    (h : Envelope.unmarshal line = some e) : e.OnWire := by
  obtain ⟨fs, hfs, h⟩ := Option.bind_eq_some_iff.mp h
  exact Envelope.onWire_zero.setAll (parseRaw_values hfs) h

/-! ## One hop -/

/-- A line ends at its first newline, whatever is written after it. -/
theorem readString_line {line : GoString} (h : 0x0A ∉ line) (later : GoString) :
    readString (line ++ 0x0A :: later) = some (line ++ [0x0A], later) := by
  induction line with
  | nil => rfl
  | cons c line ih =>
      have hc : c ≠ 0x0A := fun hc => h (by simp [hc])
      rw [List.cons_append, readString, if_neg hc, ih fun hm => h (List.mem_cons_of_mem _ hm)]
      rfl

/-- The payload as the next hop will hold it. -/
def rewritten (raw : GoString) : GoString :=
  if raw = [] then str "null" else compactFrom .between raw

theorem Envelope.OnWire.writeRaw {e : Envelope} (h : e.OnWire) :
    Gossip.writeRaw e.payload = some (rewritten e.payload)
      ∧ Spelled (maxNestingDepth - 1) .value (rewritten e.payload)
      ∧ Printable (rewritten e.payload) := by
  unfold Gossip.writeRaw rewritten
  split
  · refine ⟨rfl, .word (by simp), ?_⟩
    unfold Printable
    decide +kernel
  · rename_i hne
    exact (h.payload.resolve_left hne).compact_value (by decide)

/-- What is read from the members an envelope is written with. -/
def Envelope.wireValues (e : Envelope) : List (Json → Prop) :=
  [(· = .str (toValidUTF8 e.id)), (· = .str (toValidUTF8 e.origin)),
    (· = .str (toValidUTF8 e.kind.text)), (· = .num (formatInt e.ts)), fun _ => True]
    ++ if e.signature = [] then [] else [(· = bytesValue e.signature)]

theorem Envelope.reads_members (e : Envelope) {raw : GoString}
    (hraw : Spelled (maxNestingDepth - 1) .value raw) :
    List.Forall₂ (fun f P => ReadsRaw (maxNestingDepth - 1) f.2 P) (e.members raw)
      e.wireValues := by
  have hfive : List.Forall₂ (fun f P => ReadsRaw (maxNestingDepth - 1) f.2 P)
      [(str "id", quote e.id), (str "origin", quote e.origin), (str "kind", quote e.kind.text),
        (str "ts", formatInt e.ts), (str "payload", raw)]
      [(· = .str (toValidUTF8 e.id)), (· = .str (toValidUTF8 e.origin)),
        (· = .str (toValidUTF8 e.kind.text)), (· = .num (formatInt e.ts)), fun _ => True] :=
    .cons (readsRaw_quote _ _) (.cons (readsRaw_quote _ _) (.cons (readsRaw_quote _ _)
      (.cons (readsRaw_formatInt _ _) (.cons hraw.raw .nil))))
  unfold Envelope.members Envelope.wireValues
  refine List.rel_append hfive ?_
  split
  · exact .nil
  · rename_i hne
    have hsig := reads_writeBytes e.signature
    rw [writeBytes, if_neg hne] at hsig
    exact .cons (hsig.raw _ ⟨_, _, rfl, by decide⟩) .nil

theorem Envelope.setAll_append (fs gs : List (GoString × Json × GoString)) (e : Envelope) :
    e.setAll (fs ++ gs) = (e.setAll fs).bind fun e' => e'.setAll gs :=
  List.foldlM_append

/-- The members that were written, decoded into the zero value. -/
theorem Envelope.OnWire.setAll_members {e : Envelope} (h : e.OnWire) (raw : GoString)
    {vs : List Json} (hvs : List.Forall₂ (fun P v => P v) e.wireValues vs) :
    Envelope.zero.setAll (((e.members raw).zip vs).map
      (fun p => (toValidUTF8 p.1.1, p.2, p.1.2))) = some { e with payload := raw } := by
  have hts : decodeInt 0 (.num (formatInt e.ts)) = some e.ts := parseInt_formatInt _
  have hfive : ∀ v, Envelope.zero.setAll
      [(toValidUTF8 (str "id"), .str (toValidUTF8 e.id), quote e.id),
        (toValidUTF8 (str "origin"), .str (toValidUTF8 e.origin), quote e.origin),
        (toValidUTF8 (str "kind"), .str (toValidUTF8 e.kind.text), quote e.kind.text),
        (toValidUTF8 (str "ts"), .num (formatInt e.ts), formatInt e.ts),
        (toValidUTF8 (str "payload"), v, raw)]
      = some ⟨e.id, e.origin, e.kind, e.ts, raw, []⟩ := by
    intro v
    rw [toValidUTF8_of_valid h.id, toValidUTF8_of_valid h.origin, toValidUTF8_of_valid h.kind]
    show ((decodeInt 0 (.num (formatInt e.ts))).map fun t =>
      Envelope.mk e.id e.origin (Kind.ofText e.kind.text) t [] []).bind _ = _
    rw [hts, Kind.ofText_text]
    rfl
  unfold Envelope.members
  unfold Envelope.wireValues at hvs
  obtain ⟨id, origin, kind, ts, payload, signature⟩ := e
  by_cases hsig : signature = []
  · subst hsig
    simp only [if_pos, List.append_nil] at hvs ⊢
    obtain _ | ⟨rfl, _ | ⟨rfl, _ | ⟨rfl, _ | ⟨rfl, _ | ⟨-, ⟨⟩⟩⟩⟩⟩⟩ := hvs
    exact hfive _
  · simp only [if_neg hsig, List.cons_append, List.nil_append] at hvs ⊢
    obtain _ | ⟨rfl, _ | ⟨rfl, _ | ⟨rfl, _ | ⟨rfl, _ | ⟨-, _ | ⟨rfl, ⟨⟩⟩⟩⟩⟩⟩⟩ := hvs
    refine (@Envelope.setAll_append [_, _, _, _, _] [_] Envelope.zero).trans ?_
    rw [hfive]
    show ((decodeBytes [] (bytesValue signature)).map _).bind some = _
    rw [decodeBytes_bytesValue]
    rfl

theorem Envelope.printable_members (e : Envelope) {raw : GoString} (hraw : Printable raw) :
    Printable (writeObject (e.members raw)) := by
  refine printable_writeObject ?_
  unfold Envelope.members
  simp only [List.forall_mem_append, List.forall_mem_cons]
  refine ⟨⟨printable_quote _, printable_quote _, printable_quote _, printable_formatInt _,
    hraw, fun _ hf => absurd hf List.not_mem_nil⟩, ?_⟩
  split
  · exact fun _ hf => absurd hf List.not_mem_nil
  · exact fun f hf => by rw [List.mem_singleton.mp hf]; exact printable_quote _

/-- **An envelope is written on one line**, whatever is in it. -/
theorem Envelope.printable_marshal {e : Envelope} {text : GoString} (h : e.marshal = some text) :
    Printable text := by
  obtain ⟨payload, hp, rfl⟩ := Option.map_eq_some_iff.mp h
  refine e.printable_members ?_
  unfold Gossip.writeRaw at hp
  split at hp
  · cases hp
    unfold Printable
    decide +kernel
  · exact printable_compact hp

/-- **A line is decoded into the envelope it was written for**, its payload as it stands there. -/
theorem Envelope.OnWire.handleGossip {e : Envelope} (h : e.OnWire) {raw : GoString}
    (hraw : Spelled (maxNestingDepth - 1) .value raw) (hprint : Printable raw) :
    Gossip.handleGossip (writeObject (e.members raw) ++ [0x0A])
      = some (some { e with payload := raw }, []) := by
  have hprintable := e.printable_members hprint
  obtain ⟨vs, hvs, hparse⟩ := @parseRaw_writeObject _ _ (e.reads_members hraw)
    (by simp [Envelope.members]) [0x0A] (by simp [Spaces, isJsonSpace])
  unfold Gossip.handleGossip Envelope.unmarshal
  rw [readString_line (hprintable.notMem (by decide)) [], Option.map_some, hparse,
    Option.bind_some, h.setAll_members raw hvs]

/-- **What the next hop holds**: everything as it was, the payload rewritten. -/
theorem Envelope.OnWire.hop {e : Envelope} (h : e.OnWire) :
    e.hop = some { e with payload := rewritten e.payload } := by
  obtain ⟨hw, hspelled, hprint⟩ := h.writeRaw
  have hline : e.broadcast = some (writeObject (e.members (rewritten e.payload)) ++ [0x0A]) := by
    unfold Envelope.broadcast Envelope.marshal
    rw [hw]
    rfl
  unfold Envelope.hop
  rw [hline, Option.bind_some, h.handleGossip hspelled hprint]
  rfl

end Gsnet.Gossip
