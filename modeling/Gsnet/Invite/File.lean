import Gsnet.Config

/-!
# Invitation files

`internal/invite/file.go`. The first block is about the invitee, the others are
host configurations to be copied. A block ends at a line beginning with `#` and
before a `Name` line.
-/

namespace Gsnet.Invite

open Go Config

/-- One host config block. -/
structure Block where
  name : GoString := []
  address : GoString := []
  connectTo : List GoString := []
  ifconfig : List GoString := []
  route : List GoString := []
  other : List Entry := []
  deriving DecidableEq, Repr

/-- A parsed invitation file. -/
structure File where
  netname : GoString
  invitee : Block
  hosts : List Block
  deriving DecidableEq, Repr

inductive FileError where
  | tooLong
  | config (e : Config.Error)
  /-- `expected single entry, got %d`. -/
  | entries (n : Nat)
  /-- `invitation file is empty`. -/
  | empty
  /-- `invitation file: first block missing Name`. -/
  | firstName
  /-- `invitation file: host block missing Name`. -/
  | hostName
  deriving DecidableEq, Repr

def parseConfigLine (s : GoString) : Except FileError Entry :=
  match Config.parse s with
  | .error e => .error (.config e)
  | .ok [e] => .ok e
  | .ok es => .error (.entries es.length)

/-- The blocks finished so far, and the entries of the current one. -/
abbrev Scan := List Entries × Entries

def flush (st : Scan) : Scan := if st.2 = [] then st else (st.1 ++ [st.2], [])

/-- One line of the file. -/
def scanLine (st : Scan) (line : GoString) : Except FileError Scan :=
  if line = [] then .ok st
  else if line.head? = some 0x23 then .ok (flush st)
  else do
    let e ← parseConfigLine line
    -- a new Name line in the middle starts a new block too
    let st := if equalFold e.key (str "Name") ∧ st.2 ≠ [] then flush st else st
    .ok (st.1, st.2 ++ [e])

/-- One entry of a block. The last of several names counts. -/
def addEntry (b : Block) (e : Entry) : Block :=
  if equalFold e.key (str "Name") then { b with name := e.value }
  else if equalFold e.key (str "Address") then { b with address := e.value }
  else if equalFold e.key (str "ConnectTo") then { b with connectTo := b.connectTo ++ [e.value] }
  else if equalFold e.key (str "Ifconfig") then { b with ifconfig := b.ifconfig ++ [e.value] }
  else if equalFold e.key (str "Route") then { b with route := b.route ++ [e.value] }
  else if equalFold e.key (str "Netname") then b
  else { b with other := b.other ++ [e] }

def blockFromEntries (es : Entries) : Block := es.foldl addEntry {}

/-- A block after the first. -/
def hostBlock (es : Entries) : Except FileError Block :=
  let b := blockFromEntries es
  if b.name = [] then .error .hostName else .ok b

/-- The blocks of a file. -/
def scanBlocks (text : GoString) : Except FileError (List Entries) := do
  let (lines, tooLong) := scanLines text
  let st ← (lines.map trimSpace).foldlM scanLine ([], [])
  if tooLong then .error .tooLong else .ok (flush st).1

/-- `ParseFile`. -/
def parseFile (text : GoString) : Except FileError File := do
  match ← scanBlocks text with
  | [] => .error .empty
  | b :: rest =>
    let first := blockFromEntries b
    if first.name = [] then .error .firstName
    else
      let netname := (b.find? fun e => equalFold e.key (str "Netname")).elim [] Entry.value
      let hosts ← rest.mapM hostBlock
      .ok ⟨netname, first, hosts⟩

/-! ## Writing -/

/-- The lines of one block. Each is written as `%s = %s`. -/
def writeBlock (f : File) (blk : Block) (includeNetname : Bool) : GoString :=
  Entries.render <|
    [⟨str "Name", blk.name⟩]
      ++ (if includeNetname ∧ f.netname ≠ [] then [⟨str "Netname", f.netname⟩] else [])
      ++ blk.connectTo.map (⟨str "ConnectTo", ·⟩)
      ++ (if blk.address ≠ [] then [⟨str "Address", blk.address⟩] else [])
      ++ blk.ifconfig.map (⟨str "Ifconfig", ·⟩)
      ++ blk.route.map (⟨str "Route", ·⟩)
      ++ blk.other

/-- The line before each host block. -/
def separator : GoString := str "#---------------------------------------#"

/-- `Render`. -/
def File.render (f : File) : GoString :=
  writeBlock f f.invitee true
    ++ f.hosts.flatMap fun h => separator ++ [0x0A] ++ writeBlock f h false

example : (parseFile (str "Name = bob\nNetName vpn\n#---#\nName = a\nName = c\nPort = 1\n")).map
      (fun f => (f.invitee.name, f.netname, f.hosts.map Block.name))
    = .ok (str "bob", str "vpn", [str "a", str "c"]) := by decide +kernel

end Gsnet.Invite
