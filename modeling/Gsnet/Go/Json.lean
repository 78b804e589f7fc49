import Gsnet.Go.Strconv
import Gsnet.Go.Base64

/-!
# encoding/json

As much of the package as the control plane uses: `Marshal` of flat structs,
and `Unmarshal` of any text into such a struct. The text may come from a peer,
so the reader is the whole grammar; the writer is not.

Both directions are the documented ones. `Marshal` escapes `<`, `>`, `&`,
U+2028 and U+2029 and writes U+FFFD for a byte that begins no rune. `Unmarshal`
accepts white space anywhere between tokens, matches field names without regard
to case, ignores unknown names, lets a repeated name overwrite, and leaves a
field alone when it reads `null`.
-/

namespace Gsnet.Go

/-- A JSON value. Numbers keep their spelling: the target type decides what they mean. -/
inductive Json where
  | null
  | bool (b : Bool)
  | num (lit : GoString)
  | str (s : GoString)
  | arr (xs : List Json)
  | obj (fs : List (GoString × Json))

/-! ## Writing -/

/-- A lower-case hexadecimal digit. -/
def hexDigit (n : Nat) : UInt8 :=
  if n < 10 then UInt8.ofNat (0x30 + n) else UInt8.ofNat (0x57 + n)

/-- How a single-byte rune is written inside a string. -/
def escapeByte (a : UInt8) : GoString :=
  if a = 0x22 ∨ a = 0x5C then [0x5C, a]
  else if a = 0x08 then [0x5C, 0x62]
  else if a = 0x0C then [0x5C, 0x66]
  else if a = 0x0A then [0x5C, 0x6E]
  else if a = 0x0D then [0x5C, 0x72]
  else if a = 0x09 then [0x5C, 0x74]
  else if a < 0x20 ∨ a = 0x3C ∨ a = 0x3E ∨ a = 0x26 then
    [0x5C, 0x75, 0x30, 0x30, hexDigit (a.toNat / 16), hexDigit (a.toNat % 16)]
  else [a]

/-- U+2028 and U+2029 are escaped; other three-byte runes are copied. -/
def escape3 (a b c : UInt8) : GoString :=
  if a = 0xE2 ∧ b = 0x80 ∧ (c = 0xA8 ∨ c = 0xA9) then
    [0x5C, 0x75, 0x32, 0x30, 0x32, hexDigit (c.toNat % 16)]
  else [a, b, c]

/-- The body of a string literal. -/
def escape : GoString → GoString
  | [] => []
  | a :: t =>
    match runeLen a t, t with
    | 1, t => escapeByte a ++ escape t
    | 2, b :: t => a :: b :: escape t
    | 3, b :: c :: t => escape3 a b c ++ escape t
    | 4, b :: c :: d :: t => a :: b :: c :: d :: escape t
    | _, t => [0x5C, 0x75, 0x66, 0x66, 0x66, 0x64] ++ escape t

/-- A string literal. -/
def quote (s : GoString) : GoString := 0x22 :: (escape s ++ [0x22])

/-- A `[]byte` field: base64 in a string, `null` when the slice is nil. -/
def writeBytes (b : GoString) : GoString := if b = [] then str "null" else quote (base64Encode b)

/-- The members of an object and its closing brace. -/
def writeMembers : List (GoString × GoString) → GoString
  | [] => [0x7D]
  | [(k, v)] => quote k ++ 0x3A :: (v ++ [0x7D])
  | (k, v) :: fs => quote k ++ 0x3A :: (v ++ 0x2C :: writeMembers fs)

/-- An object, from its field names and the texts of their values. -/
def writeObject (fs : List (GoString × GoString)) : GoString := 0x7B :: writeMembers fs

/-! ## Reading strings -/

/-- The value of a hexadecimal digit, in either case. -/
def hexVal (c : UInt8) : Option Nat :=
  if 0x30 ≤ c && c ≤ 0x39 then some (c.toNat - 0x30)
  else if 0x61 ≤ c && c ≤ 0x66 then some (c.toNat - 0x57)
  else if 0x41 ≤ c && c ≤ 0x46 then some (c.toNat - 0x37)
  else none

/-- The code unit of the four digits after `\u`. -/
def getu4 (a b c d : UInt8) : Option Nat := do
  let a ← hexVal a
  let b ← hexVal b
  let c ← hexVal c
  let d ← hexVal d
  some (((a * 16 + b) * 16 + c) * 16 + d)

/-- `utf16.IsSurrogate`. -/
def isSurrogate (r : Nat) : Bool := 0xD800 ≤ r && r < 0xE000

/-- `utf16.DecodeRune`, `none` where it returns U+FFFD. -/
def decodeSurrogates (r₁ r₂ : Nat) : Option Nat :=
  if 0xD800 ≤ r₁ ∧ r₁ < 0xDC00 ∧ 0xDC00 ≤ r₂ ∧ r₂ < 0xE000 then
    some ((r₁ - 0xD800) * 1024 + (r₂ - 0xDC00) + 0x10000)
  else none

/-- The single-character escapes. -/
def unescape (e : UInt8) : Option UInt8 :=
  if e = 0x22 ∨ e = 0x5C ∨ e = 0x2F then some e
  else if e = 0x62 then some 0x08
  else if e = 0x66 then some 0x0C
  else if e = 0x6E then some 0x0A
  else if e = 0x72 then some 0x0D
  else if e = 0x74 then some 0x09
  else none

/-- The low surrogate an escaped high one is followed by, when it is. -/
def surrogateTail (r : Nat) : GoString → Option Nat
  | a :: b :: g₁ :: g₂ :: g₃ :: g₄ :: _ =>
    if a = 0x5C ∧ b = 0x75 then (getu4 g₁ g₂ g₃ g₄).bind (decodeSurrogates r) else none
  | _ => none

/-- Put bytes in front of what the rest of a literal denotes. -/
def push (bs : GoString) (r : Option (GoString × GoString)) : Option (GoString × GoString) :=
  r.map fun p => (bs ++ p.1, p.2)

/-- A string literal after its opening quote: what it denotes, and what follows it. -/
def unquote : GoString → Option (GoString × GoString)
  | [] => none
  | a :: t =>
    if a = 0x22 then some ([], t)
    else if a = 0x5C then
      match t with
      | [] => none
      | e :: t =>
        if e = 0x75 then
          match t with
          | h₁ :: h₂ :: h₃ :: h₄ :: t =>
            match getu4 h₁ h₂ h₃ h₄ with
            | none => none
            | some r =>
              -- half of a pair: one rune with its other half, U+FFFD without
              if isSurrogate r then
                match surrogateTail r t, t with
                | some dec, _ :: _ :: _ :: _ :: _ :: _ :: t => push (encodeRune dec) (unquote t)
                | _, t => push runeError (unquote t)
              else push (encodeRune r) (unquote t)
          | _ => none
        else
          match unescape e with
          | none => none
          | some c => push [c] (unquote t)
    else if a < 0x20 then none
    else
      -- the text of a peer need not be UTF-8
      match runeLen a t, t with
      | 1, t => push [a] (unquote t)
      | 2, b :: t => push [a, b] (unquote t)
      | 3, b :: c :: t => push [a, b, c] (unquote t)
      | 4, b :: c :: d :: t => push [a, b, c, d] (unquote t)
      | _, t => push runeError (unquote t)

/-! ## Reading numbers -/

/-- The digits before any point or exponent: no superfluous leading zero. -/
def scanInt : GoString → Option (GoString × GoString)
  | [] => none
  | c :: t =>
    if c = 0x30 then some ([c], t)
    else if isDigit c then some (c :: t.takeWhile isDigit, t.dropWhile isDigit)
    else none

/-- At least one digit. -/
def scanDigits (s : GoString) : Option (GoString × GoString) :=
  if s.takeWhile isDigit = [] then none else some (s.takeWhile isDigit, s.dropWhile isDigit)

/-- An optional fraction. -/
def scanFrac : GoString → Option (GoString × GoString)
  | [] => some ([], [])
  | c :: t => if c = 0x2E then (scanDigits t).map fun p => (c :: p.1, p.2) else some ([], c :: t)

/-- An optional exponent. -/
def scanExp : GoString → Option (GoString × GoString)
  | [] => some ([], [])
  | c :: t =>
    if c = 0x65 ∨ c = 0x45 then
      match t with
      | [] => none
      | g :: u =>
        if g = 0x2B ∨ g = 0x2D then (scanDigits u).map fun p => (c :: g :: p.1, p.2)
        else (scanDigits t).map fun p => (c :: p.1, p.2)
    else some ([], c :: t)

/-- The part of a number after its sign. -/
def scanUnsigned (s : GoString) : Option (GoString × GoString) := do
  let (i, s) ← scanInt s
  let (f, s) ← scanFrac s
  let (e, s) ← scanExp s
  some (i ++ f ++ e, s)

/-- A number: its spelling, and what follows it. -/
def scanNumber : GoString → Option (GoString × GoString)
  | [] => none
  | c :: t =>
    if c = 0x2D then (scanUnsigned t).map fun p => (c :: p.1, p.2) else scanUnsigned (c :: t)

/-! ## Reading values -/

/-- The four white-space bytes of JSON. -/
def isJsonSpace (c : UInt8) : Bool := c = 0x20 || c = 0x09 || c = 0x0A || c = 0x0D

/-- Skip white space. -/
def skipSpace (s : GoString) : GoString := s.dropWhile isJsonSpace

/-- Skip white space and one expected byte. -/
def expect (c : UInt8) (s : GoString) : Option GoString :=
  match skipSpace s with
  | [] => none
  | a :: t => if a = c then some t else none

/-- Skip one exact keyword. -/
def keyword (w : GoString) (s : GoString) : Option GoString :=
  if w.isPrefixOf s then some (s.drop w.length) else none

mutual

/--
One value and what follows it. `depth` is how many more objects and arrays may
be opened (the scanner gives up past ten thousand); the fuel only has to exceed
the number of bytes left.
-/
def parseValue : Nat → Nat → GoString → Option (Json × GoString)
  | 0, _, _ => none
  | fuel + 1, depth, s =>
    match skipSpace s with
    | [] => none
    | c :: t =>
      if c = 0x22 then (unquote t).map fun p => (.str p.1, p.2)
      else if c = 0x7B then
        if depth = 0 then none
        else match expect 0x7D t with
          | some r => some (.obj [], r)
          | none => (parseMembers fuel (depth - 1) t).map fun p => (.obj p.1, p.2)
      else if c = 0x5B then
        if depth = 0 then none
        else match expect 0x5D t with
          | some r => some (.arr [], r)
          | none => (parseElements fuel (depth - 1) t).map fun p => (.arr p.1, p.2)
      else if c = 0x74 then (keyword (str "true") (c :: t)).map fun r => (.bool true, r)
      else if c = 0x66 then (keyword (str "false") (c :: t)).map fun r => (.bool false, r)
      else if c = 0x6E then (keyword (str "null") (c :: t)).map fun r => (.null, r)
      else (scanNumber (c :: t)).map fun p => (.num p.1, p.2)

/-- The members of an object, through its closing brace. -/
def parseMembers : Nat → Nat → GoString → Option (List (GoString × Json) × GoString)
  | 0, _, _ => none
  | fuel + 1, depth, s => do
    let s ← expect 0x22 s
    let (k, s) ← unquote s
    let s ← expect 0x3A s
    let (v, s) ← parseValue fuel depth s
    match expect 0x7D s with
    | some r => some ([(k, v)], r)
    | none => do
      let s ← expect 0x2C s
      let (fs, r) ← parseMembers fuel depth s
      some ((k, v) :: fs, r)

/-- The elements of an array, through its closing bracket. -/
def parseElements : Nat → Nat → GoString → Option (List Json × GoString)
  | 0, _, _ => none
  | fuel + 1, depth, s => do
    let (v, s) ← parseValue fuel depth s
    match expect 0x5D s with
    | some r => some ([v], r)
    | none => do
      let s ← expect 0x2C s
      let (vs, r) ← parseElements fuel depth s
      some (v :: vs, r)

end

/-- `maxNestingDepth`. -/
def maxNestingDepth : Nat := 10000

/-- A whole text: one value, white space around it, nothing else. -/
def parse (s : GoString) : Option Json := do
  let (v, r) ← parseValue (s.length + 1) maxNestingDepth s
  if skipSpace r = [] then some v else none

/-! ## Decoding into a struct -/

/--
Field names compare under simple case folding. Besides the letters themselves,
U+017F folds to `S` and U+212A to `K`; no other rune folds to ASCII.
-/
def foldName : GoString → GoString
  | [] => []
  | a :: t =>
    match a, t with
    | 0xC5, 0xBF :: t => 0x53 :: foldName t
    | 0xE2, 0x84 :: 0xAA :: t => 0x4B :: foldName t
    | a, t => (if 0x61 ≤ a && a ≤ 0x7A then a - 0x20 else a) :: foldName t

/--
Decoding an object into a struct: every member in order, each handed to the
field its name folds to. A member of the wrong type fails the whole call.
-/
def decodeStruct {σ : Type} (set : GoString → Json → σ → Option σ) (init : σ) :
    Json → Option σ
  | .null => some init
  | .obj fs => fs.foldlM (fun s f => set (foldName f.1) f.2 s) init
  | _ => none

/-- Into a `string`. -/
def decodeString (old : GoString) : Json → Option GoString
  | .str s => some s
  | .null => some old
  | _ => none

/-- Into an `int`. -/
def decodeInt (old : Int64) : Json → Option Int64
  | .num lit => parseInt lit
  | .null => some old
  | _ => none

/-- Into one byte of a slice. -/
def decodeByte (old : UInt8) : Json → Option UInt8
  | .num lit => (parseDigits lit).bind fun n => if n < 256 then some (UInt8.ofNat n) else none
  | .null => some old
  | _ => none

/-- The elements of an array into a byte slice. -/
def decodeElements : GoString → List Json → Option GoString
  | _, [] => some []
  | old, v :: vs => do
    let b ← decodeByte (old.headD 0) v
    let bs ← decodeElements old.tail vs
    some (b :: bs)

/-- Into a `[]byte`: base64 in a string, or an array of numbers. -/
def decodeBytes (old : GoString) : Json → Option GoString
  | .str s => base64Decode s
  | .null => some []
  | .arr vs => decodeElements old vs
  | _ => none

end Gsnet.Go
