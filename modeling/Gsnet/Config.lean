import Gsnet.Go.CaseFold
import Gsnet.Go.Os

/-!
# Configuration files

`internal/config`. A file is a list of lines `Key = Value` or `Key Value`; keys
are compared without regard to case, and a key may occur more than once. The
primary file is followed by the fragments in `conf.d`.
-/

namespace Gsnet.Config

open Go

/-- A single key/value pair. -/
structure Entry where
  key : GoString
  value : GoString
  deriving DecidableEq, Repr

abbrev Entries := List Entry

/-- What can go wrong; the lines are quoted in the message. -/
inductive Error where
  /-- The file could not be read. -/
  | os (e : OsError)
  /-- `bufio.Scanner: token too long`. -/
  | tooLong
  /-- `invalid line %q: missing value`. -/
  | missingValue (line : GoString)
  /-- `invalid line %q: empty key`. -/
  | emptyKey (line : GoString)
  /-- `invalid line %q: empty value`. -/
  | emptyValue (line : GoString)
  deriving DecidableEq, Repr

/-- The known keys in their canonical capitalization; each is looked up in lower case. -/
def canonical : List GoString :=
  ["Address", "AddressFamily", "AutoConnect", "BindToAddress", "BindToInterface", "Broadcast",
    "BroadcastSubnet", "Cipher", "ClampMSS", "Compression", "ConnectTo", "DecrementTTL",
    "Device", "DeviceStandby", "DeviceType", "Digest", "DirectOnly", "Ed25519PublicKey",
    "Ed25519PrivateKey", "Forwarding", "FWMark", "Hostnames", "Ifconfig", "IffOneQueue",
    "IndirectData", "Interface", "InvitationExpire", "KeyExpire", "ListenAddress",
    "LocalDiscovery", "LogLevel", "MACLength", "MACExpire", "MaxConnectionBurst", "MaxTimeout",
    "Mode", "MTUInfoInterval", "Name", "Netname", "PMTU", "PMTUDiscovery", "PingInterval",
    "PingTimeout", "Port", "PriorityInheritance", "ProcessPriority", "Proxy", "ReplayWindow",
    "Route", "Sandbox", "ScriptsExtension", "ScriptsInterpreter", "StrictSubnets", "Subnet",
    "TCPOnly", "TunnelServer", "UDPDiscovery", "UDPDiscoveryInterval",
    "UDPDiscoveryKeepaliveInterval", "UDPDiscoveryTimeout", "UDPInfoInterval", "UDPRcvBuf",
    "UDPSndBuf", "UPnP", "UPnPDiscoverWait", "UPnPRefreshPeriod", "Weight", "WGPublicKey",
    "WGPrivateKey", "WGEndpoint"].map str

/-- Unknown keys stay as they are. -/
def canonicalKey (k : GoString) : GoString :=
  (canonical.find? fun c => toLower c == toLower k).getD k

/-- The key and the value of a line, before they are looked at. -/
def splitLine (s : GoString) : Except Error (GoString × GoString) :=
  match cut 0x3D s with
  | (key, some value) => .ok (trimSpace key, trimSpace value)
  | (_, none) =>
    match fields s with
    | key :: _ :: _ => .ok (key, trimSpace (s.drop key.length))
    | _ => .error (.missingValue s)

def parseLine (s : GoString) : Except Error Entry := do
  let (key, value) ← splitLine s
  if key = [] then .error (.emptyKey s)
  else if value = [] then .error (.emptyValue s)
  else .ok ⟨canonicalKey key, value⟩

/-- Whether a trimmed line is left out: it is empty, or a comment. -/
def isBlank (line : GoString) : Bool := line = [] || line.head? = some 0x23

/-- `Parse`. The first line that does not parse decides. -/
def parse (text : GoString) : Except Error Entries := do
  let (lines, tooLong) := scanLines text
  let entries ← ((lines.map trimSpace).filter fun l => !isBlank l).mapM parseLine
  if tooLong then .error .tooLong else .ok entries

section Files

variable (fs : FileSystem)

def parseFile (path : GoString) : Except Error Entries :=
  match fs.readFile path with
  | .error e => .error (.os e)
  | .ok text => parse text

/-- The fragments a directory holds, in lexical order. -/
def fragments (entries : List DirEntry) : List GoString :=
  (entries.filter fun de => !de.isDir && (str ".conf").isSuffixOf de.name).map DirEntry.name

/-- `LoadDirectory`: a primary file that is missing counts as empty, and so does `conf.d`. -/
def loadDirectory (primaryPath : GoString) : Except Error Entries := do
  let entries ← match parseFile fs primaryPath with
    | .error (.os .notExist) => .ok []
    | r => r
  let confd := join [dirname primaryPath, str "conf.d"]
  match fs.readDir confd with
  | .error .notExist => .ok entries
  | .error e => .error (.os e)
  | .ok dirEntries =>
    let more ← (fragments dirEntries).mapM fun n => parseFile fs (join [confd, n])
    .ok (entries ++ more.flatten)

end Files

/-! ## Lookups -/

namespace Entries

variable (es : Entries)

/-- `GetFirst`: the first value under a key. -/
def getFirst (key : GoString) : Option GoString :=
  (es.find? fun e => equalFold e.key key).map Entry.value

/-- `GetAll`: all values under a key, in order. -/
def getAll (key : GoString) : List GoString :=
  (es.filter fun e => equalFold e.key key).map Entry.value

/-- `GetAll` for a key that is not a literal of the program. -/
def getAllOf [CaseFold] (key : GoString) : List GoString :=
  (es.filter fun e => EqualFold e.key key).map Entry.value

end Entries

/-! ## Writing -/

/-- The line of an entry, `%s = %s`. -/
def Entry.line (e : Entry) : GoString := e.key ++ str " = " ++ e.value

/-- `Render`. -/
def Entries.render (es : Entries) : GoString := es.flatMap fun e => e.line ++ [0x0A]

example : parse (str "  Name   =   alice  \n\n# c\n\t port 655\r\n")
    = .ok [⟨str "Name", str "alice"⟩, ⟨str "Port", str "655"⟩] := by decide +kernel
example : parse (str "Name = a\nPort\n") = .error (.missingValue (str "Port")) := by decide +kernel

end Gsnet.Config
