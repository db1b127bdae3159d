import ContextSets.Json.Reader
import ContextSets.Number.Decimal
import ContextSets.Toml.Date
import ContextSets.Toml.Value

/-!
# TOML scalars

Strings in their four forms, numbers, booleans, dates and times. A reading function takes what it
reads off the front of the characters and returns the rest.
-/

namespace ContextSets.Toml

/-- Blanks within a line. -/
def isBlank (c : Char) : Bool :=
  c == ' ' || c == '\t'

/-- Whether a character may stand in a comment or, apart from quotes and escapes, in a string of one
line. -/
def isText (c : Char) : Bool :=
  c == '\t' || (0x20 ≤ c.toNat && c.toNat != 0x7f)

/-- Drops blanks. -/
def skipBlanks (cs : List Char) : List Char :=
  cs.dropWhile isBlank

/-- What follows the end of a line, if a line ends here. -/
def afterNewline? : List Char → Option (List Char)
  | '\n' :: rest => some rest
  | '\r' :: '\n' :: rest => some rest
  | _ => none

/-- Drops blanks and line ends. -/
def skipLines : List Char → List Char
  | [] => []
  | '\r' :: '\n' :: rest => skipLines rest
  | c :: rest => if isBlank c || c == '\n' then skipLines rest else c :: rest

/-- The character of a code point, if it is one. -/
def charAt? (code : Nat) : Option Char :=
  if code.isValidChar then some (Char.ofNat code) else none

/-- The number that hexadecimal digits denote. -/
def hexNumber? (digits : List Char) : Option Nat :=
  digits.foldlM (fun n c => do return n * 16 + (← Json.hexDigit? c)) 0

/-- Reads an escape behind its backslash. -/
def readEscape : List Char → Option (Char × List Char)
  | 'b' :: rest => some ('\x08', rest)
  | 't' :: rest => some ('\t', rest)
  | 'n' :: rest => some ('\n', rest)
  | 'f' :: rest => some ('\x0c', rest)
  | 'r' :: rest => some ('\r', rest)
  | '"' :: rest => some ('"', rest)
  | '\\' :: rest => some ('\\', rest)
  | 'e' :: rest => some ('\x1b', rest)
  | 'x' :: rest => readCode 2 rest
  | 'u' :: rest => readCode 4 rest
  | 'U' :: rest => readCode 8 rest
  | _ => none
where
  /-- Reads a code point of so many digits. -/
  readCode (width : Nat) (cs : List Char) : Option (Char × List Char) := do
    if cs.length < width then none
    else
      let code ← hexNumber? (cs.take width)
      return (← charAt? code, cs.drop width)

/-- Reads the rest of a string of one line, in which escapes count or not, up to its closing quote.
The first argument bounds the number of steps. -/
def readLineString (quote : Char) (escapes : Bool) : Nat → List Char → Option (List Char × List Char)
  | 0, _ => none
  | _, [] => none
  | fuel + 1, c :: rest =>
    if c = quote then some ([], rest)
    else if escapes && c == '\\' then do
      let (c, rest) ← readEscape rest
      let (cs, rest) ← readLineString quote escapes fuel rest
      return (c :: cs, rest)
    else if isText c then do
      let (cs, rest) ← readLineString quote escapes fuel rest
      return (c :: cs, rest)
    else none

/-- How many of the next five characters are quotes in a row. -/
def quotesAhead (quote : Char) (cs : List Char) : Nat :=
  ((cs.take 5).takeWhile (· == quote)).length

/-- Reads the rest of a string of several lines. Three quotes end it, of which up to two more may
belong to the text. A backslash at the end of a line takes away all blanks and line ends behind it.
All other line ends stay as they are written. -/
def readLongString (quote : Char) (escapes : Bool) : Nat → List Char → Option (List Char × List Char)
  | 0, _ => none
  | _, [] => none
  | fuel + 1, c :: rest =>
    let ahead := quotesAhead quote (c :: rest)
    if 3 ≤ ahead then some (List.replicate (ahead - 3) quote, (c :: rest).drop ahead)
    else if escapes && c == '\\' then
      if (afterNewline? (skipBlanks rest)).isSome then
        readLongString quote escapes fuel (skipLines rest)
      else do
        let (c, rest) ← readEscape rest
        let (cs, rest) ← readLongString quote escapes fuel rest
        return (c :: cs, rest)
    else if isText c || (afterNewline? (c :: rest)).isSome then do
      let (cs, rest) ← readLongString quote escapes fuel rest
      return (c :: cs, rest)
    else none

/-- Reads a string of one line behind its opening quote. -/
def readShort (quote : Char) (cs : List Char) : Option (String × List Char) := do
  let (text, rest) ← readLineString quote (quote == '"') (cs.length + 1) cs
  return (String.ofList text, rest)

/-- Reads a string behind its first quote. A line end right behind three opening quotes does not
count. -/
def readString (quote : Char) (cs : List Char) : Option (String × List Char) := do
  if quotesAhead quote cs < 2 then readShort quote cs
  else
    let body := cs.drop 2
    let body := (afterNewline? body).getD body
    let (text, rest) ← readLongString quote (quote == '"') (body.length + 1) body
    return (String.ofList text, rest)

/-- Digits without the single underscores that may stand between them. -/
def joinDigits? (isDigit : Char → Bool) : List Char → Option (List Char)
  | [] => none
  | [c] => if isDigit c then some [c] else none
  | c :: '_' :: rest => if isDigit c then (joinDigits? isDigit rest).map (c :: ·) else none
  | c :: rest => if isDigit c then (joinDigits? isDigit rest).map (c :: ·) else none

/-- The digits of a decimal whole number, which starts with a zero only if it is one. -/
def wholeDigits? (cs : List Char) : Option (List Char) := do
  let digits ← joinDigits? Char.isDigit cs
  if digits.head? = some '0' ∧ 1 < digits.length then none else some digits

/-- Whether a number is negative, and its text without a sign. -/
def splitSign : List Char → Bool × List Char
  | '-' :: rest => (true, rest)
  | '+' :: rest => (false, rest)
  | cs => (false, cs)

/-- The number that digits of a base denote. -/
def inBase (base : Nat) (digits : List Char) : Nat :=
  digits.foldl (fun n c => n * base + (Json.hexDigit? c).getD 0) 0

/-- A whole number with a letter for its base. -/
def basedInteger? (cs : List Char) : Option Nat := do
  let read (base : Nat) (digits : List Char) : Option Nat :=
    (joinDigits? (fun c => (Json.hexDigit? c).any (· < base)) digits).map (inBase base)
  match cs with
  | '0' :: 'x' :: digits => read 16 digits
  | '0' :: 'o' :: digits => read 8 digits
  | '0' :: 'b' :: digits => read 2 digits
  | _ => none

/-- Whether a number has 128 bits, with a sign or without. -/
def isStorable (value : Int) : Bool :=
  -(Int.ofNat (UInt64.size * UInt64.size)) ≤ 2 * value &&
    value < Int.ofNat (UInt64.size * UInt64.size)

/-- A decimal whole number. -/
def decimalInteger? (cs : List Char) : Option Int := do
  let (negative, unsigned) := splitSign cs
  let n := inBase 10 (← wholeDigits? unsigned)
  return if negative then -Int.ofNat n else Int.ofNat n

/-- A whole number. -/
def integer? (cs : List Char) : Option Int :=
  ((basedInteger? cs).map Int.ofNat <|> decimalInteger? cs).filter isStorable

/-- The digits and the mark of an exponent, without a plus. -/
def exponentText? : List Char → Option (List Char)
  | '-' :: digits => (joinDigits? Char.isDigit digits).map ('-' :: ·)
  | '+' :: digits => joinDigits? Char.isDigit digits
  | digits => joinDigits? Char.isDigit digits

/-- The text of an unsigned number with a point or an exponent, without its underscores. -/
def decimalText? (cs : List Char) : Option (List Char) := do
  let isMark (c : Char) : Bool := c == 'e' || c == 'E'
  let mantissa := cs.takeWhile (!isMark ·)
  if cs.all Char.isDigit then none
  let whole ← wholeDigits? (mantissa.takeWhile (· != '.'))
  let fraction ←
    match mantissa.dropWhile (· != '.') with
    | [] => some []
    | _ :: digits => (joinDigits? Char.isDigit digits).map ('.' :: ·)
  let exponent ←
    match cs.dropWhile (!isMark ·) with
    | [] => some []
    | _ :: power => (exponentText? power).map ('e' :: ·)
  return whole ++ fraction ++ exponent

/-- A number in double precision. One that is too large for it has to be written as infinity. -/
def float? (cs : List Char) : Option Float := do
  let (negative, unsigned) := splitSign cs
  let sized (value : Float) : Float := if negative then -value else value
  match unsigned with
  | ['i', 'n', 'f'] => some (sized (1.0 / 0.0))
  | ['n', 'a', 'n'] => some (sized (0.0 / 0.0))
  | _ =>
    let (_, digits, power) ← Decimal.ofText? (← decimalText? unsigned)
    let value := Decimal.toDouble negative digits power
    if value.isFinite then some value else none

/-- The value of a text without quotes and brackets. -/
def scalar? (cs : List Char) : Option Toml :=
  if cs = ['t', 'r', 'u', 'e'] then some (.boolean true)
  else if cs = ['f', 'a', 'l', 's', 'e'] then some (.boolean false)
  else if isDateTime cs then some .dateTime
  else
    match integer? cs with
    | some value => some (.integer value)
    | none => (float? cs).map .float

/-- Whether a character belongs to a value without quotes and brackets. -/
def isScalarChar (c : Char) : Bool :=
  c.isAlphanum || c == '+' || c == '-' || c == '_' || c == '.' || c == ':'

/-- Reads a value without quotes and brackets. Behind a date a blank may stand before the time. -/
def readScalar (cs : List Char) : Option (Toml × List Char) := do
  let word := cs.takeWhile isScalarChar
  let rest := cs.dropWhile isScalarChar
  match rest with
  | ' ' :: c :: more =>
    if c.isDigit && takeDate word == some [] then
      let time := (c :: more).takeWhile isScalarChar
      return (← scalar? (word ++ [' '] ++ time), (c :: more).dropWhile isScalarChar)
    else return (← scalar? word, rest)
  | _ => return (← scalar? word, rest)

end ContextSets.Toml
