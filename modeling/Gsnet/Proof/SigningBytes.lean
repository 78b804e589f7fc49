import Gsnet.Gossip.Announce

/-!
# What a signature covers

`SigningBytes` ends the ID, the origin and the kind with a NUL, puts eight raw
bytes of timestamp after them, one more NUL and the payload. The timestamp may
hold NULs, and so may the ID, the origin and the kind of an envelope a peer made
up: JSON has an escape for them. No reader ever takes the bytes apart again, so
nothing but this argument says that they stand for one envelope.

It goes from both ends. A payload has no NUL, so the last one of all is the one
before it; the timestamp is the eight bytes before that. What is left are three
fields around two NULs on the side of the honest envelope, and two is also the
least the other side can have.
-/

namespace Gsnet.Gossip

open Go Lib

/-! ## The timestamp -/

/-- The bit `j` of the byte written for the shift `k` is the bit `k + j` of the timestamp. -/
theorem getLsbD_tsByte (ts : Int64) {k j : Nat} (hj : j < 8) (hk : k + j < 64) :
    (tsByte ts k).toBitVec.getLsbD j = ts.toBitVec.getLsbD (k + j) := by
  simp only [tsByte, BitVec.getLsbD_setWidth, BitVec.getLsbD_sshiftRight]
  simp only [hj, hk, decide_true, Bool.true_and, if_true]
  simp only [show ¬ 64 ≤ j by omega, decide_false, Bool.not_false, Bool.true_and]

/-- **The eight bytes determine the timestamp.** -/
theorem tsBytes_injective : Function.Injective tsBytes := by
  intro a b h
  have hbyte : ∀ q < 8, tsByte a (8 * q) = tsByte b (8 * q) := by
    simp only [tsBytes, List.map_cons, List.map_nil, List.cons.injEq, and_true] at h
    obtain ⟨h7, h6, h5, h4, h3, h2, h1, h0⟩ := h
    intro q hq
    interval_cases q <;> assumption
  refine Int64.toBitVec_inj.mp (BitVec.eq_of_getLsbD_eq fun i hi => ?_)
  have hi' : 8 * (i / 8) + i % 8 = i := Nat.div_add_mod i 8
  have hj : i % 8 < 8 := Nat.mod_lt i (by decide)
  have hbit := congrArg (fun x => x.toBitVec.getLsbD (i % 8)) (hbyte (i / 8) (by omega))
  simp only [getLsbD_tsByte _ hj (by omega : 8 * (i / 8) + i % 8 < 64)] at hbit
  rwa [hi'] at hbit

/-! ## The fields before it -/

/-- The three fields that end with a NUL. -/
def Envelope.fields (e : Envelope) : List GoString := [e.id, e.origin, e.kind.text]

/-- The bytes as the fields around their NULs, the timestamp and the payload. -/
theorem signingBytes_eq (e : Envelope) :
    e.signingBytes = (([0] : GoString).intercalate e.fields ++ 0 :: tsBytes e.ts)
      ++ 0 :: e.payload := by
  simp [Envelope.signingBytes, Envelope.fields, List.intercalate]

/--
**The signed bytes stand for one envelope**: an envelope without a NUL in any
field shares them with no other, even one that has NULs wherever a peer can put
them.
-/
theorem signingBytes_inj {e e' : Envelope} (hid : 0 ∉ e.id) (horigin : 0 ∉ e.origin)
    (hkind : 0 ∉ e.kind.text) (hpayload : 0 ∉ e.payload) (hpayload' : 0 ∉ e'.payload)
    (h : e.signingBytes = e'.signingBytes) :
    e.id = e'.id ∧ e.origin = e'.origin ∧ e.kind = e'.kind ∧ e.ts = e'.ts
      ∧ e.payload = e'.payload := by
  rw [signingBytes_eq, signingBytes_eq] at h
  obtain ⟨hfront, hbody⟩ := append_cons_inj_right hpayload hpayload' h
  -- eight bytes and a NUL on either side
  obtain ⟨hfields, hts⟩ := List.append_inj' hfront (by simp [tsBytes])
  have hall : ∀ f ∈ e.fields, 0 ∉ f := by
    simp only [Envelope.fields, List.mem_cons, List.not_mem_nil, or_false]
    rintro f (rfl | rfl | rfl)
    · exact hid
    · exact horigin
    · exact hkind
  have heq : e.fields = e'.fields := intercalate_inj hall (List.cons_ne_nil _ _) rfl hfields
  simp only [Envelope.fields, List.cons.injEq, and_true] at heq
  exact ⟨heq.1, heq.2.1, Kind.text_injective heq.2.2, tsBytes_injective (List.cons.inj hts).2,
    hbody⟩

/-- Two envelopes that differ in their signatures only have the same bytes. -/
theorem signingBytes_inj_sample :
    let e : Envelope := ⟨str "a/hello", str "a", .addNode, 256, str "{}", []⟩
    let e' : Envelope := { e with signature := [1] }
    e.signingBytes = e'.signingBytes ∧ e.id = e'.id ∧ e.origin = e'.origin ∧ e.kind = e'.kind
      ∧ e.ts = e'.ts ∧ e.payload = e'.payload :=
  ⟨rfl, @signingBytes_inj ⟨str "a/hello", str "a", .addNode, 256, str "{}", []⟩
    ⟨str "a/hello", str "a", .addNode, 256, str "{}", [1]⟩ (by decide) (by decide) (by decide)
    (by decide) (by decide) rfl⟩

/-! ## What a node signs itself -/

theorem printable_omitEmpty (name value : GoString) :
    ∀ f ∈ omitEmpty name value, Printable f.2 := by
  unfold omitEmpty
  split
  · simp
  · simp [printable_quote]

/-- **A payload a node marshals has no control character in it**, whatever the call carries. -/
theorem printable_body (a : Announcement) (name : GoString) : Printable (a.body name) := by
  cases a with
  | hello h =>
      refine printable_writeObject ?_
      simp only [List.mem_append, List.mem_cons, List.not_mem_nil, or_false]
      rintro f ((((rfl | rfl | rfl) | hf) | hf) | hf)
      · exact printable_quote _
      · exact printable_writeBytes _
      · exact printable_quote _
      · exact printable_omitEmpty _ _ f hf
      · exact printable_omitEmpty _ _ f hf
      · exact printable_omitEmpty _ _ f hf
  | addEdge peer w =>
      exact printable_writeObject (by simp [printable_quote, printable_formatInt])
  | delEdge peer => exact printable_writeObject (by simp [printable_quote])
  | addSubnet s => exact printable_writeObject (by simp [printable_quote])
  | delSubnet s => exact printable_writeObject (by simp [printable_quote])

/--
**What a node announces has no NUL in any field**, as soon as its ID has none:
the origin is the beginning of the ID, the kinds are words.
-/
theorem nul_notMem_announce [Ed25519] (p : Plane) (a : Announcement) (ts : Int64)
    (hid : 0 ∉ a.id p.nodeName) :
    0 ∉ (p.announce a ts).2.origin ∧ 0 ∉ (p.announce a ts).2.kind.text
      ∧ 0 ∉ (p.announce a ts).2.payload := by
  rw [Plane.announce_origin, Plane.announce_kind, Plane.announce_payload]
  refine ⟨?_, ?_, (printable_body a p.nodeName).notMem (by decide)⟩
  · obtain ⟨rest, hrest⟩ := a.id_eq p.nodeName
    rw [hrest] at hid
    exact fun h => hid (List.mem_append_left _ h)
  · have hwords : ∀ k ∈ Kind.known, 0 ∉ k.text := by decide +kernel
    have hknown : a.kind ∈ Kind.known := by
      cases a <;> simp [Announcement.kind, Kind.known]
    exact hwords a.kind hknown

end Gsnet.Gossip
