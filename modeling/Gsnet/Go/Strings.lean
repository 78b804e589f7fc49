import Gsnet.Go.Json

/-!
# strings and bufio

The text functions the parsers of the program are built from. White space is
Unicode white space: besides the six ASCII characters a handful of runes of two
and three bytes. Their first bytes occur in no other place of a rune, so a string
can be looked at byte by byte.
-/

namespace Gsnet.Go

/-! ## White space -/

/-- The ASCII white space characters. -/
def isAsciiSpace (a : UInt8) : Bool := a == 0x20 || (0x09 ≤ a && a ≤ 0x0D)

/-- How many bytes the white space rune at the front takes, `0` if there is none. -/
def spaceLen (s : GoString) : Nat :=
  match s with
  | [] => 0
  | a :: t =>
    if isAsciiSpace a then 1
    else match a, t with
      -- U+0085 and U+00A0
      | 0xC2, b :: _ => if b == 0x85 || b == 0xA0 then 2 else 0
      -- U+1680
      | 0xE1, 0x9A :: 0x80 :: _ => 3
      -- U+2000 to U+200A, U+2028, U+2029 and U+202F
      | 0xE2, 0x80 :: c :: _ =>
        if (0x80 ≤ c && c ≤ 0x8A) || c == 0xA8 || c == 0xA9 || c == 0xAF then 3 else 0
      -- U+205F and U+3000
      | 0xE2, 0x81 :: 0x9F :: _ => 3
      | 0xE3, 0x80 :: 0x80 :: _ => 3
      | _, _ => 0

/-- `strings.TrimLeftFunc(s, unicode.IsSpace)`; `skip` bytes belong to a rune already seen. -/
def trimLeftFrom (skip : Nat) : GoString → GoString
  | [] => []
  | a :: t =>
    if 0 < skip then trimLeftFrom (skip - 1) t
    else match spaceLen (a :: t) with
      | 0 => a :: t
      | n + 1 => trimLeftFrom n t

/-- How many bytes the white space rune at the end takes, of a string read backwards. -/
def lastSpaceLen (r : GoString) : Nat :=
  match r with
  | [] => 0
  | a :: t =>
    if isAsciiSpace a then 1
    else match t with
      | [] => 0
      | b :: t =>
        if spaceLen [b, a] = 2 then 2
        else match t with
          | [] => 0
          | c :: _ => if spaceLen [c, b, a] = 3 then 3 else 0

/-- `strings.TrimRightFunc(s, unicode.IsSpace)` of a string read backwards. -/
def trimRightFrom (skip : Nat) : GoString → GoString
  | [] => []
  | a :: t =>
    if 0 < skip then trimRightFrom (skip - 1) t
    else match lastSpaceLen (a :: t) with
      | 0 => a :: t
      | n + 1 => trimRightFrom n t

/-- `strings.TrimSpace`. -/
def trimSpace (s : GoString) : GoString := (trimRightFrom 0 (trimLeftFrom 0 s).reverse).reverse

/-- The words from here on, after `skip` bytes; `word` is the beginning of the current one. -/
def fieldsFrom (skip : Nat) (word : GoString) : GoString → List GoString
  | [] => if word = [] then [] else [word]
  | a :: t =>
    if 0 < skip then fieldsFrom (skip - 1) word t
    else match spaceLen (a :: t) with
      | 0 => fieldsFrom 0 (word ++ [a]) t
      | n + 1 => if word = [] then fieldsFrom n [] t else word :: fieldsFrom n [] t

/-- `strings.Fields`. -/
def fields (s : GoString) : List GoString := fieldsFrom 0 [] s

/-! ## Cutting and comparing -/

/-- `strings.Cut(s, sep)` for a separator of one byte. -/
def cut (sep : UInt8) (s : GoString) : GoString × Option GoString :=
  match s.dropWhile (· != sep) with
  | [] => (s, none)
  | _ :: after => (s.takeWhile (· != sep), some after)

/-- `strings.Split(s, sep)` for a separator of one byte. -/
def split (sep : UInt8) : GoString → List GoString
  | [] => [[]]
  | c :: t =>
    if c = sep then [] :: split sep t
    else match split sep t with
      | [] => [[c]]
      | p :: ps => (c :: p) :: ps

/-- `strings.TrimRight(s, "\r\n")`. -/
def trimEOL (s : GoString) : GoString := s.rdropWhile (fun c => c == 0x0D || c == 0x0A)

/-- `strings.CutPrefix(s, lead)`. -/
def cutLead (lead s : GoString) : Option GoString :=
  if lead.isPrefixOf s then some (s.drop lead.length) else none

/-- `strings.EqualFold(s, literal)` for an ASCII literal. -/
def equalFold (s literal : GoString) : Bool := foldName s == foldName literal

/--
`strings.ToLower`, for comparison with ASCII text: besides the letters themselves
U+212A becomes `k` and U+0130 becomes `i`; no other rune becomes ASCII.
-/
def toLower : GoString → GoString
  | [] => []
  | a :: t =>
    match a, t with
    | 0xE2, 0x84 :: 0xAA :: t => 0x6B :: toLower t
    | 0xC4, 0xB0 :: t => 0x69 :: toLower t
    | a, t => (if 0x41 ≤ a && a ≤ 0x5A then a + 0x20 else a) :: toLower t

/-! ## Lines -/

/-- `bufio.Reader.ReadString('\n')`: the line with its newline, and what follows it. -/
def readString : GoString → Option (GoString × GoString)
  | [] => none
  | c :: t => if c = 0x0A then some ([c], t) else (readString t).map fun r => (c :: r.1, r.2)

/-- The lines of a text without their newlines. A last line needs no newline. -/
def rawLines (line : GoString) : GoString → List GoString
  | [] => if line = [] then [] else [line]
  | c :: t => if c = 0x0A then line :: rawLines [] t else rawLines (line ++ [c]) t

/-- A carriage return before the newline belongs to it. -/
def dropCR (line : GoString) : GoString :=
  if line.getLast? = some 0x0D then line.dropLast else line

/-- The longest line a `bufio.Scanner` can hold. -/
def maxLine : Nat := 65535

/-- What `bufio.Scanner` delivers: the lines before one that is too long, and whether one is. -/
def scanLines (s : GoString) : List GoString × Bool :=
  let lines := rawLines [] s
  ((lines.takeWhile (·.length ≤ maxLine)).map dropCR, lines.any (maxLine < ·.length))

example : fields (str " a\t\u2003bc\u3000d ") = [str "a", str "bc", str "d"] := by decide +kernel
example : trimSpace (str "\u00A0 \u2028a b\r\n\u0085") = str "a b" := by decide +kernel
example : toLower (str "\u212AEY") = str "key" := by decide +kernel

end Gsnet.Go
