import ContextSets.Json.Value

/-!
# Reading JSON

The reader accepts exactly the JSON grammar. Each reading function takes what it reads off the front
of the characters and returns the rest. Bytes are read as characters below 256, of which only strings
have to be put together: one whose bytes are no text stands for none.
-/

namespace ContextSets.Json

/-- The blanks allowed between tokens. -/
def isGap (c : Char) : Bool :=
  c == ' ' || c == '\t' || c == '\n' || c == '\r'

/-- Drops the blanks in front. -/
def skipGap (cs : List Char) : List Char :=
  cs.dropWhile isGap

/-- A part of a string: a character, or a UTF-16 unit written as an escape. -/
inductive Piece where
  | char (c : Char)
  | unit (value : Nat)

/-- The value of a hexadecimal digit. -/
def hexDigit? (c : Char) : Option Nat :=
  if '0' ≤ c ∧ c ≤ '9' then some (c.toNat - 48)
  else if 'a' ≤ c ∧ c ≤ 'f' then some (c.toNat - 87)
  else if 'A' ≤ c ∧ c ≤ 'F' then some (c.toNat - 55)
  else none

/-- The value of four hexadecimal digits. -/
def hexUnit? (a b c d : Char) : Option Nat := do
  let a ← hexDigit? a
  let b ← hexDigit? b
  let c ← hexDigit? c
  let d ← hexDigit? d
  return ((a * 16 + b) * 16 + c) * 16 + d

/-- The character of an escape of one letter. -/
def shortEscape? : Char → Option Char
  | '"' => some '"'
  | '\\' => some '\\'
  | '/' => some '/'
  | 'b' => some '\x08'
  | 'f' => some '\x0c'
  | 'n' => some '\n'
  | 'r' => some '\r'
  | 't' => some '\t'
  | _ => none

/-- Reads the rest of a string behind its opening quote. -/
def readPieces : List Char → Option (List Piece × List Char)
  | [] => none
  | '"' :: rest => some ([], rest)
  | '\\' :: 'u' :: a :: b :: c :: d :: rest => do
    let value ← hexUnit? a b c d
    let (pieces, rest) ← readPieces rest
    return (.unit value :: pieces, rest)
  | '\\' :: e :: rest => do
    let c ← shortEscape? e
    let (pieces, rest) ← readPieces rest
    return (.char c :: pieces, rest)
  | c :: rest =>
    if c.toNat < 0x20 || c == '\\' then none
    else do
      let (pieces, rest) ← readPieces rest
      return (.char c :: pieces, rest)

/-- The first unit of a surrogate pair. -/
def isHighUnit (value : Nat) : Bool := 0xd800 ≤ value && value < 0xdc00

/-- The second unit of a surrogate pair. -/
def isLowUnit (value : Nat) : Bool := 0xdc00 ≤ value && value < 0xe000

/-- The pieces of a string one behind the other, if its units pair up: what `raw` makes of a
character, and what `written` makes of a character that is written in units. -/
def joinPieces {α : Type} (raw written : Char → List α) : List Piece → Option (List α)
  | [] => some []
  | .char c :: rest => (joinPieces raw written rest).map (raw c ++ ·)
  | .unit value :: rest =>
    if isHighUnit value then
      match rest with
      | .unit low :: rest =>
        if isLowUnit low then
          let c := Char.ofNat (0x10000 + (value - 0xd800) * 0x400 + (low - 0xdc00))
          (joinPieces raw written rest).map (written c ++ ·)
        else none
      | _ => none
    else if isLowUnit value then none
    else (joinPieces raw written rest).map (written (Char.ofNat value) ++ ·)

/-- The text that the pieces of a string in a text stand for. -/
def textOfPieces? (pieces : List Piece) : Option String :=
  (joinPieces ([·]) ([·]) pieces).map String.ofList

/-- The text that the pieces of a string in bytes stand for, if it is valid UTF-8. -/
def textOfBytes? (pieces : List Piece) : Option String := do
  let bytes ← joinPieces ([·.toNat.toUInt8]) (String.singleton · |>.toUTF8.toList) pieces
  String.fromUTF8? ⟨bytes.toArray⟩

section

variable (join : List Piece → Option String)

/-- Reads a string behind its opening quote. -/
def readString (cs : List Char) : Option (Option String × List Char) := do
  let (pieces, rest) ← readPieces cs
  return (join pieces, rest)

/-- Reads one or more digits. -/
def readDigits (cs : List Char) : Option (List Char × List Char) :=
  match cs.takeWhile Char.isDigit with
  | [] => none
  | digits => some (digits, cs.dropWhile Char.isDigit)

/-- Reads the digits before the point: a zero stands alone. -/
def readWhole : List Char → Option (List Char × List Char)
  | '0' :: rest => some (['0'], rest)
  | cs => readDigits cs

/-- Reads a point and the digits behind it, if there is a point. -/
def readFraction : List Char → Option (List Char × List Char)
  | '.' :: rest => do
    let (digits, rest) ← readDigits rest
    return ('.' :: digits, rest)
  | cs => some ([], cs)

/-- Reads an exponent, if there is one. -/
def readExponent : List Char → Option (List Char × List Char)
  | [] => some ([], [])
  | e :: rest =>
    if e == 'e' || e == 'E' then
      match rest with
      | s :: more =>
        if s == '+' || s == '-' then do
          let (digits, rest) ← readDigits more
          return (e :: s :: digits, rest)
        else do
          let (digits, rest) ← readDigits rest
          return (e :: digits, rest)
      | [] => none
    else some ([], e :: rest)

/-- Reads a number without its sign. -/
def readUnsigned (cs : List Char) : Option (List Char × List Char) := do
  let (whole, rest) ← readWhole cs
  let (fraction, rest) ← readFraction rest
  let (exponent, rest) ← readExponent rest
  return (whole ++ fraction ++ exponent, rest)

/-- Reads a number. -/
def readNumber : List Char → Option (List Char × List Char)
  | '-' :: rest => do
    let (literal, rest) ← readUnsigned rest
    return ('-' :: literal, rest)
  | cs => readUnsigned cs

mutual

/-- Reads a value. The first argument bounds the number of values, items and members within each
other or behind each other. -/
def readValue : Nat → List Char → Option (Json × List Char)
  | 0, _ => none
  | fuel + 1, cs =>
    match skipGap cs with
    | 'n' :: 'u' :: 'l' :: 'l' :: rest => some (.null, rest)
    | 't' :: 'r' :: 'u' :: 'e' :: rest => some (.bool true, rest)
    | 'f' :: 'a' :: 'l' :: 's' :: 'e' :: rest => some (.bool false, rest)
    | '"' :: rest => do
      let (text, rest) ← readString join rest
      return (.string text, rest)
    | '[' :: rest =>
      match skipGap rest with
      | ']' :: rest => some (.array [], rest)
      | _ => do
        let (items, rest) ← readItems fuel rest
        return (.array items, rest)
    | '{' :: rest =>
      match skipGap rest with
      | '}' :: rest => some (.object [], rest)
      | _ => do
        let (members, rest) ← readMembers fuel rest
        return (.object members, rest)
    | cs => do
      let (literal, rest) ← readNumber cs
      return (.number (String.ofList literal), rest)

/-- Reads the items of an array that has some, and its end. -/
def readItems : Nat → List Char → Option (List Json × List Char)
  | 0, _ => none
  | fuel + 1, cs => do
    let (value, rest) ← readValue fuel cs
    match skipGap rest with
    | ',' :: rest =>
      let (items, rest) ← readItems fuel rest
      return (value :: items, rest)
    | ']' :: rest => return ([value], rest)
    | _ => none

/-- Reads the members of an object that has some, and its end. -/
def readMembers : Nat → List Char → Option (List (Option String × Json) × List Char)
  | 0, _ => none
  | fuel + 1, cs =>
    match skipGap cs with
    | '"' :: rest => do
      let (key, rest) ← readString join rest
      match skipGap rest with
      | ':' :: rest =>
        let (value, rest) ← readValue fuel rest
        match skipGap rest with
        | ',' :: rest =>
          let (members, rest) ← readMembers fuel rest
          return ((key, value) :: members, rest)
        | '}' :: rest => return ([(key, value)], rest)
        | _ => none
      | _ => none
    | _ => none

end

/-- The value that all characters denote. -/
def readAll? (cs : List Char) : Option Json := do
  let (value, rest) ← readValue join (2 * cs.length + 2) cs
  if (skipGap rest).isEmpty then some value else none

end

/-- The value that a whole text denotes. -/
def read? (text : String) : Option Json :=
  readAll? textOfPieces? text.toList

/-- The value that bytes denote. What stands outside of strings is ASCII. -/
def readBytes? (bytes : ByteArray) : Option Json :=
  readAll? textOfBytes? (bytes.toList.map fun byte => Char.ofNat byte.toNat)

end ContextSets.Json
