import ContextSets.Toml.Scalar

/-!
# Reading TOML

A document is a sequence of statements: headers, which name the table that follows, and pairs of a
key and a value. `ofStatements` builds the tables, `ofText?` reads a whole text. No key may be given
twice, and a table that has been written out may not be added to from elsewhere.
-/

namespace ContextSets.Toml

/-- The entries of a table. -/
abbrev Entries := List (String × Toml)

/-- Adds a pair whose key has steps before its last part. Steps lead through tables that only keys or
ways have made, and the last of them has to be made by keys. -/
def addPair (key : String) (value : Toml) : List String → Entries → Option Entries
  | [], entries =>
    match find? key entries with
    | none => some (put key value entries)
    | some _ => none
  | step :: rest, entries =>
    match find? step entries with
    | none => do return put step (.table .dotted (← addPair key value rest [])) entries
    | some (.table .dotted inner) => do
      return put step (.table .dotted (← addPair key value rest inner)) entries
    | some (.table .way inner) =>
      if rest.isEmpty then none
      else do return put step (.table .way (← addPair key value rest inner)) entries
    | some (.tables elements) =>
      if rest.isEmpty then none
      else do
        let last ← addPair key value rest (elements.getLast?.getD [])
        return put step (.tables (elements.dropLast ++ [last])) entries
    | some _ => none

/-- Changes the table to which steps lead, which is made if it is missing. Repeated tables are entered
at their last element. Tables in braces are closed. -/
def within (change : Entries → Option Entries) : List String → Entries → Option Entries
  | [], entries => change entries
  | step :: rest, entries =>
    match find? step entries with
    | none => do return put step (.table .way (← within change rest [])) entries
    | some (.table .inline _) => none
    | some (.table origin inner) => do
      return put step (.table origin (← within change rest inner)) entries
    | some (.tables elements) => do
      let last ← within change rest (elements.getLast?.getD [])
      return put step (.tables (elements.dropLast ++ [last])) entries
    | some _ => none

/-- Opens a table by a header of its own. -/
def openTable (key : String) (entries : Entries) : Option Entries :=
  match find? key entries with
  | none => some (put key (.table .header []) entries)
  | some (.table .way inner) => some (put key (.table .header inner) entries)
  | some _ => none

/-- Opens one more of repeated tables. -/
def openElement (key : String) (entries : Entries) : Option Entries :=
  match find? key entries with
  | none => some (put key (.tables [[]]) entries)
  | some (.tables elements) => some (put key (.tables (elements ++ [[]])) entries)
  | some _ => none

/-- A statement. Paths are given by their steps and their last part. -/
inductive Statement where
  | header (steps : List String) (key : String)
  | element (steps : List String) (key : String)
  | pair (steps : List String) (key : String) (value : Toml)

/-- Carries out statements, of which pairs belong to the table of the last header. -/
def build (current : List String) : List Statement → Entries → Option Entries
  | [], entries => some entries
  | .header steps key :: rest, entries => do
    build (steps ++ [key]) rest (← within (openTable key) steps entries)
  | .element steps key :: rest, entries => do
    build (steps ++ [key]) rest (← within (openElement key) steps entries)
  | .pair steps key value :: rest, entries => do
    build current rest (← within (addPair key value steps) current entries)

/-- The document that statements make. -/
def ofStatements (statements : List Statement) : Option Entries :=
  build [] statements []

/-- Whether a character may stand in a key without quotes. -/
def isBareKey (c : Char) : Bool :=
  c.isAlphanum || c == '_' || c == '-'

/-- Reads one part of a key. -/
def readKeyPart : List Char → Option (String × List Char)
  | '"' :: rest => readShort '"' rest
  | '\'' :: rest => readShort '\'' rest
  | cs =>
    match cs.takeWhile isBareKey with
    | [] => none
    | part => some (String.ofList part, cs.dropWhile isBareKey)

/-- How deep arrays and tables in braces may be nested, and how many parts a key may have. -/
def greatestDepth : Nat := 80

/-- Reads a key of parts with points between them. Around every part there may be blanks. The first
argument bounds the number of parts. -/
def readKey : Nat → List Char → Option (List String × String × List Char)
  | 0, _ => none
  | fuel + 1, cs => do
    let (part, rest) ← readKeyPart (skipBlanks cs)
    match skipBlanks rest with
    | '.' :: rest =>
      let (steps, key, rest) ← readKey fuel rest
      return (part :: steps, key, rest)
    | rest => return ([], part, rest)

/-- Drops a comment, which runs to the end of its line. -/
def skipComment : List Char → Option (List Char)
  | '#' :: rest =>
    let rest := rest.dropWhile isText
    if rest.isEmpty || (afterNewline? rest).isSome then some rest else none
  | cs => some cs

/-- Drops blanks, line ends and comments. The first argument bounds the number of comments. -/
def skipSpace : Nat → List Char → Option (List Char)
  | 0, _ => none
  | fuel + 1, cs =>
    match skipLines cs with
    | '#' :: rest => do skipSpace fuel (← skipComment ('#' :: rest))
    | cs => some cs

mutual

/-- Reads a value. The first argument bounds the number of values, items and entries within each
other or behind each other. -/
def readValue : Nat → List Char → Option (Toml × List Char)
  | 0, _ => none
  | fuel + 1, cs =>
    match cs with
    | '"' :: rest => do
      let (text, rest) ← readString '"' rest
      return (.string text, rest)
    | '\'' :: rest => do
      let (text, rest) ← readString '\'' rest
      return (.string text, rest)
    | '[' :: rest => do
      let (items, rest) ← readItems fuel rest
      return (.array items, rest)
    | '{' :: rest => do
      let (entries, rest) ← readEntries fuel [] rest
      return (.table .inline entries, rest)
    | cs => readScalar cs

/-- Reads the items of an array and its end. Behind the last item there may be a comma. -/
def readItems : Nat → List Char → Option (List Toml × List Char)
  | 0, _ => none
  | fuel + 1, cs => do
    match ← skipSpace (cs.length + 1) cs with
    | ']' :: rest => return ([], rest)
    | cs =>
      let (value, rest) ← readValue fuel cs
      match ← skipSpace (rest.length + 1) rest with
      | ',' :: rest =>
        let (items, rest) ← readItems fuel rest
        return (value :: items, rest)
      | ']' :: rest => return ([value], rest)
      | _ => none

/-- Reads the entries of a table in braces, behind those already read, and its end. Behind the last entry
there may be a comma. -/
def readEntries : Nat → Entries → List Char → Option (Entries × List Char)
  | 0, _, _ => none
  | fuel + 1, entries, cs => do
    match ← skipSpace (cs.length + 1) cs with
    | '}' :: rest => return (entries, rest)
    | cs =>
      let (steps, key, rest) ← readKey greatestDepth cs
      match ← skipSpace (rest.length + 1) rest with
      | '=' :: rest =>
        let (value, rest) ← readValue fuel (← skipSpace (rest.length + 1) rest)
        let entries ← addPair key value steps entries
        match ← skipSpace (rest.length + 1) rest with
        | ',' :: rest => readEntries fuel entries rest
        | '}' :: rest => return (entries, rest)
        | _ => none
      | _ => none

end

/-- Reads a statement. -/
def readStatement (cs : List Char) : Option (Statement × List Char) := do
  match cs with
  | '[' :: '[' :: rest =>
    match ← readKey greatestDepth rest with
    | (steps, key, ']' :: ']' :: rest) => return (.element steps key, rest)
    | _ => none
  | '[' :: rest =>
    match ← readKey greatestDepth rest with
    | (steps, key, ']' :: rest) => return (.header steps key, rest)
    | _ => none
  | cs =>
    match ← readKey greatestDepth cs with
    | (steps, key, '=' :: rest) =>
      let rest := skipBlanks rest
      let (value, rest) ← readValue (2 * rest.length + 2) rest
      if value.depth ≤ greatestDepth then return (.pair steps key value, rest) else none
    | _ => none

/-- Reads statements, each on lines of its own. The first argument bounds their number. -/
def readStatements : Nat → List Char → Option (List Statement)
  | 0, _ => none
  | fuel + 1, cs => do
    match ← skipSpace (cs.length + 1) cs with
    | [] => return []
    | cs =>
      let (statement, rest) ← readStatement cs
      let rest ← skipComment (skipBlanks rest)
      if rest.isEmpty then return [statement]
      else return statement :: (← readStatements fuel (← afterNewline? rest))

/-- The entries of the document that a text denotes. A byte order mark in front does not count. -/
def ofText? (text : String) : Option Entries := do
  let cs :=
    match text.toList with
    | '\ufeff' :: rest => rest
    | cs => cs
  ofStatements (← readStatements (cs.length + 1) cs)

end ContextSets.Toml
