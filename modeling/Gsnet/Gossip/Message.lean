import Gsnet.Go.JsonProof

/-!
# Gossip messages

`internal/gossip/message.go`: the envelope every fact travels in, the bytes its
origin signs, and the payloads. Payloads are JSON text inside the envelope; what
a receiver acts on is what it reads back from that text, not what the sender
passed to `Announce*`.
-/

namespace Gsnet.Gossip

open Go

/-! ## Kinds -/

/-- The discriminators the program knows. -/
def kindNames : List GoString :=
  [str "hello", str "add_edge", str "del_edge", str "add_subnet", str "del_subnet",
    str "add_node", str "del_node", str "ping", str "pong"]

/-- The payload discriminator. On the wire it is a string, so it may be none of the known ones. -/
inductive Kind where
  | hello
  | addEdge
  | delEdge
  | addSubnet
  | delSubnet
  | addNode
  | delNode
  | ping
  | pong
  | unknown (s : GoString) (h : s ∉ kindNames)
  deriving DecidableEq

/-- The kind as it is written. -/
def Kind.text : Kind → GoString
  | .hello => str "hello"
  | .addEdge => str "add_edge"
  | .delEdge => str "del_edge"
  | .addSubnet => str "add_subnet"
  | .delSubnet => str "del_subnet"
  | .addNode => str "add_node"
  | .delNode => str "del_node"
  | .ping => str "ping"
  | .pong => str "pong"
  | .unknown s _ => s

def Kind.known : List Kind :=
  [.hello, .addEdge, .delEdge, .addSubnet, .delSubnet, .addNode, .delNode, .ping, .pong]

/-- The kind a string is read as. -/
def Kind.ofText (s : GoString) : Kind :=
  if h : s ∈ kindNames then (known.find? fun k => k.text = s).getD .hello else .unknown s h

theorem Kind.ofText_text (k : Kind) : ofText k.text = k := by
  cases k with
  | unknown s h => exact dif_neg h
  | _ => decide +kernel

theorem Kind.text_ofText (s : GoString) : (ofText s).text = s := by
  unfold ofText
  split
  · rename_i h
    -- one of nine names, each found by its own kind
    have hall : ∀ t ∈ kindNames, ((known.find? fun k => k.text = t).getD .hello).text = t := by
      decide +kernel
    exact hall s h
  · rfl

theorem Kind.text_injective : Function.Injective Kind.text :=
  Function.LeftInverse.injective Kind.ofText_text

/-! ## Envelopes -/

/-- The on-the-wire form of a gossip message. -/
structure Envelope where
  id : GoString
  origin : GoString
  kind : Kind
  /-- Unix nanoseconds at the origin. -/
  ts : Int64
  payload : GoString
  signature : GoString
  deriving DecidableEq

/-- `byte(ts >> i)`. -/
def tsByte (ts : Int64) (i : Nat) : UInt8 :=
  UInt8.ofBitVec ((ts.toBitVec.sshiftRight i).setWidth 8)

/-- The eight bytes of a timestamp, most significant first. -/
def tsBytes (ts : Int64) : GoString := [56, 48, 40, 32, 24, 16, 8, 0].map (tsByte ts)

/-- Everything but the signature, with a NUL after every field but the last. -/
def Envelope.signingBytes (e : Envelope) : GoString :=
  e.id ++ [0] ++ e.origin ++ [0] ++ e.kind.text ++ [0] ++ tsBytes e.ts ++ [0] ++ e.payload

/-! ## Payloads -/

/-- A node and its current keys, endpoint and addresses. -/
structure Hello where
  name : GoString := []
  ed25519Public : GoString := []
  wgPublic : GoString := []
  endpoint : GoString := []
  innerAddr : GoString := []
  underlayAddr : GoString := []
  deriving DecidableEq, Repr

structure AddEdge where
  src : GoString := []
  dst : GoString := []
  weight : Int64 := 0
  deriving DecidableEq, Repr

structure DelEdge where
  src : GoString := []
  dst : GoString := []
  deriving DecidableEq, Repr

structure AddSubnet where
  owner : GoString := []
  subnet : GoString := []
  deriving DecidableEq, Repr

structure DelSubnet where
  owner : GoString := []
  subnet : GoString := []
  deriving DecidableEq, Repr

/-! ### Marshalling -/

/-- A field tagged `omitempty`. -/
def omitEmpty (name value : GoString) : List (GoString × GoString) :=
  if value = [] then [] else [(name, quote value)]

def Hello.marshal (h : Hello) : GoString :=
  writeObject ([(str "name", quote h.name), (str "ed25519_pub", writeBytes h.ed25519Public),
    (str "wg_pub", quote h.wgPublic)] ++ omitEmpty (str "endpoint") h.endpoint
    ++ omitEmpty (str "inner_addr") h.innerAddr ++ omitEmpty (str "underlay_addr") h.underlayAddr)

def AddEdge.marshal (e : AddEdge) : GoString :=
  writeObject [(str "from", quote e.src), (str "to", quote e.dst),
    (str "weight", formatInt e.weight)]

def DelEdge.marshal (e : DelEdge) : GoString :=
  writeObject [(str "from", quote e.src), (str "to", quote e.dst)]

def AddSubnet.marshal (s : AddSubnet) : GoString :=
  writeObject [(str "owner", quote s.owner), (str "subnet", quote s.subnet)]

def DelSubnet.marshal (s : DelSubnet) : GoString :=
  writeObject [(str "owner", quote s.owner), (str "subnet", quote s.subnet)]

/-! ### Unmarshalling

`set` hands one member to the field whose name it folds to; a member that
matches no field is skipped. -/

def Hello.set (key : GoString) (v : Json) (h : Hello) : Option Hello :=
  if key = str "NAME" then (decodeString h.name v).map fun s => { h with name := s }
  else if key = str "ED25519_PUB" then
    (decodeBytes h.ed25519Public v).map fun s => { h with ed25519Public := s }
  else if key = str "WG_PUB" then (decodeString h.wgPublic v).map fun s => { h with wgPublic := s }
  else if key = str "ENDPOINT" then
    (decodeString h.endpoint v).map fun s => { h with endpoint := s }
  else if key = str "INNER_ADDR" then
    (decodeString h.innerAddr v).map fun s => { h with innerAddr := s }
  else if key = str "UNDERLAY_ADDR" then
    (decodeString h.underlayAddr v).map fun s => { h with underlayAddr := s }
  else some h

def AddEdge.set (key : GoString) (v : Json) (e : AddEdge) : Option AddEdge :=
  if key = str "FROM" then (decodeString e.src v).map fun s => { e with src := s }
  else if key = str "TO" then (decodeString e.dst v).map fun s => { e with dst := s }
  else if key = str "WEIGHT" then (decodeInt e.weight v).map fun w => { e with weight := w }
  else some e

def DelEdge.set (key : GoString) (v : Json) (e : DelEdge) : Option DelEdge :=
  if key = str "FROM" then (decodeString e.src v).map fun s => { e with src := s }
  else if key = str "TO" then (decodeString e.dst v).map fun s => { e with dst := s }
  else some e

def AddSubnet.set (key : GoString) (v : Json) (s : AddSubnet) : Option AddSubnet :=
  if key = str "OWNER" then (decodeString s.owner v).map fun o => { s with owner := o }
  else if key = str "SUBNET" then (decodeString s.subnet v).map fun n => { s with subnet := n }
  else some s

def DelSubnet.set (key : GoString) (v : Json) (s : DelSubnet) : Option DelSubnet :=
  if key = str "OWNER" then (decodeString s.owner v).map fun o => { s with owner := o }
  else if key = str "SUBNET" then (decodeString s.subnet v).map fun n => { s with subnet := n }
  else some s

def Hello.unmarshal (b : GoString) : Option Hello := (parse b).bind (decodeStruct Hello.set {})

def AddEdge.unmarshal (b : GoString) : Option AddEdge :=
  (parse b).bind (decodeStruct AddEdge.set {})

def DelEdge.unmarshal (b : GoString) : Option DelEdge :=
  (parse b).bind (decodeStruct DelEdge.set {})

def AddSubnet.unmarshal (b : GoString) : Option AddSubnet :=
  (parse b).bind (decodeStruct AddSubnet.set {})

def DelSubnet.unmarshal (b : GoString) : Option DelSubnet :=
  (parse b).bind (decodeStruct DelSubnet.set {})

/-! ### A payload read back

Reading returns what was written with every string made valid UTF-8: `Marshal`
has already replaced the bytes that begin no rune. -/

/-- The member an `omitempty` field is read as. -/
def omitEmptyValue (value : GoString) : List Json :=
  if value = [] then [] else [.str (toValidUTF8 value)]

theorem reads_omitEmpty (name value : GoString) :
    List.Forall₂ (fun f v => Reads f.2 v) (omitEmpty name value) (omitEmptyValue value) := by
  unfold omitEmpty omitEmptyValue
  split
  · exact .nil
  · exact .cons (reads_quote value) .nil

/-- A field that was left out keeps the empty string it is read into. -/
theorem foldlM_omitEmpty {σ : Type} (set : GoString → Json → σ → Option σ) {s s' : σ}
    {name value : GoString} (hempty : value = [] → s' = s)
    (hset : set (foldName (toValidUTF8 name)) (.str (toValidUTF8 value)) s = some s') :
    ((omitEmpty name value).zip (omitEmptyValue value)).foldlM
      (fun s p => set (foldName (toValidUTF8 p.1.1)) p.2 s) s = some s' := by
  unfold omitEmpty omitEmptyValue
  split
  · rename_i h
    rw [hempty h]
    rfl
  · simp only [List.zip_cons_cons, List.zip_nil_right, List.foldlM_cons, List.foldlM_nil, hset]
    rfl

theorem Hello.unmarshal_marshal (h : Hello) :
    Hello.unmarshal h.marshal = some ⟨toValidUTF8 h.name, h.ed25519Public,
      toValidUTF8 h.wgPublic, toValidUTF8 h.endpoint, toValidUTF8 h.innerAddr,
      toValidUTF8 h.underlayAddr⟩ := by
  have h1 : List.Forall₂ (fun f v => Reads f.2 v)
      [(str "name", quote h.name), (str "ed25519_pub", writeBytes h.ed25519Public),
        (str "wg_pub", quote h.wgPublic)]
      [.str (toValidUTF8 h.name), bytesValue h.ed25519Public, .str (toValidUTF8 h.wgPublic)] :=
    .cons (reads_quote _) (.cons (reads_writeBytes _) (.cons (reads_quote _) .nil))
  have h2 := reads_omitEmpty (str "endpoint") h.endpoint
  have h3 := reads_omitEmpty (str "inner_addr") h.innerAddr
  have h4 := reads_omitEmpty (str "underlay_addr") h.underlayAddr
  have h12 := List.rel_append h1 h2
  have h123 := List.rel_append h12 h3
  unfold Hello.unmarshal Hello.marshal
  rw [decodeStruct_writeObject _ _ (List.rel_append h123 h4) (by simp),
    List.zip_append h123.length_eq, List.zip_append h12.length_eq, List.zip_append h1.length_eq,
    List.foldlM_append, List.foldlM_append, List.foldlM_append]
  -- the three fields that are always there
  have hd := decodeBytes_bytesValue [] h.ed25519Public
  have hfirst : List.foldlM (fun s p => Hello.set (foldName (toValidUTF8 p.1.1)) p.2 s) {}
      (List.zip [(str "name", quote h.name), (str "ed25519_pub", writeBytes h.ed25519Public),
          (str "wg_pub", quote h.wgPublic)]
        [.str (toValidUTF8 h.name), bytesValue h.ed25519Public, .str (toValidUTF8 h.wgPublic)])
      = some ⟨toValidUTF8 h.name, h.ed25519Public, toValidUTF8 h.wgPublic, [], [], []⟩ := by
    show ((decodeBytes [] (bytesValue h.ed25519Public)).map
      (fun b => Hello.mk (toValidUTF8 h.name) b [] [] [] [])).bind _ = _
    rw [hd]
    rfl
  rw [hfirst]
  simp only [Option.bind_eq_bind, Option.bind_some]
  rw [foldlM_omitEmpty Hello.set (fun he => by rw [he]; rfl) rfl]
  simp only [Option.bind_some]
  rw [foldlM_omitEmpty Hello.set (fun he => by rw [he]; rfl) rfl]
  simp only [Option.bind_some]
  rw [foldlM_omitEmpty Hello.set (fun he => by rw [he]; rfl) rfl]

theorem AddEdge.unmarshal_marshal (e : AddEdge) :
    AddEdge.unmarshal e.marshal = some ⟨toValidUTF8 e.src, toValidUTF8 e.dst, e.weight⟩ := by
  unfold AddEdge.unmarshal AddEdge.marshal
  rw [parse_writeObject (.cons (reads_quote _) (.cons (reads_quote _)
    (.cons (reads_formatInt _) .nil))) (by simp)]
  have hw : decodeInt 0 (.num (formatInt e.weight)) = some e.weight := parseInt_formatInt _
  show ((decodeInt 0 (.num (formatInt e.weight))).map
    (fun w => AddEdge.mk (toValidUTF8 e.src) (toValidUTF8 e.dst) w)).bind some = _
  rw [hw]
  rfl

theorem DelEdge.unmarshal_marshal (e : DelEdge) :
    DelEdge.unmarshal e.marshal = some ⟨toValidUTF8 e.src, toValidUTF8 e.dst⟩ := by
  unfold DelEdge.unmarshal DelEdge.marshal
  rw [parse_writeObject (.cons (reads_quote _) (.cons (reads_quote _) .nil)) (by simp)]
  rfl

theorem AddSubnet.unmarshal_marshal (s : AddSubnet) :
    AddSubnet.unmarshal s.marshal = some ⟨toValidUTF8 s.owner, toValidUTF8 s.subnet⟩ := by
  unfold AddSubnet.unmarshal AddSubnet.marshal
  rw [parse_writeObject (.cons (reads_quote _) (.cons (reads_quote _) .nil)) (by simp)]
  rfl

theorem DelSubnet.unmarshal_marshal (s : DelSubnet) :
    DelSubnet.unmarshal s.marshal = some ⟨toValidUTF8 s.owner, toValidUTF8 s.subnet⟩ := by
  unfold DelSubnet.unmarshal DelSubnet.marshal
  rw [parse_writeObject (.cons (reads_quote _) (.cons (reads_quote _) .nil)) (by simp)]
  rfl

end Gsnet.Gossip
