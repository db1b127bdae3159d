/-!
# Patterns

A pattern is matched from a place in a text on, by trying its alternatives in order and repeating as
often as possible first. The first way that lets all of the pattern match is taken. What a match
captures is kept with the text before and behind it.
-/

namespace ContextSets

/-- A place in a text: what stands before it, the nearest character first, and what follows. -/
structure Place where
  before : List Char
  rest : List Char

/-- A part of a text between two places. -/
structure Capture where
  label : String
  start : Place
  stop : Place

/-- The characters of a capture. -/
def Capture.text (capture : Capture) : List Char :=
  capture.start.rest.take (capture.start.rest.length - capture.stop.rest.length)

/-- A match under way: the place reached and the captures so far, the latest first. -/
structure Progress where
  place : Place
  captures : List Capture

/-- What a text may look like. -/
inductive Pattern where
  | nothing
  | one (test : Char → Bool)
  | textStart
  | textEnd
  | wordEdge
  | seq (first second : Pattern)
  | either (first second : Pattern)
  | many (body : Pattern)
  | capture (label : String) (body : Pattern)

namespace Pattern

instance : Append Pattern := ⟨seq⟩

/-- A word character: a letter, a digit or an underscore, of ASCII. -/
def isWordChar (c : Char) : Bool :=
  c.isAlphanum || c == '_'

/-- Whether exactly one side of a place is a word character. -/
def atWordEdge (place : Place) : Bool :=
  place.before.head?.any isWordChar != place.rest.head?.any isWordChar

/-- Repeats a match as often as possible, up to a number of times, before going on. -/
def repeated (body : (Progress → Option Progress) → Progress → Option Progress)
    (next : Progress → Option Progress) : Nat → Progress → Option Progress
  | 0, progress => next progress
  | count + 1, progress =>
    match body (repeated body next count) progress with
    | some found => some found
    | none => next progress

/-- Matches a pattern and then goes on with `next`. As a repetition takes at least one character, there
are at most as many of them as there are characters left. -/
def run : Pattern → (Progress → Option Progress) → Progress → Option Progress
  | nothing, next, progress => next progress
  | one test, next, progress =>
    match progress.place.rest with
    | [] => none
    | c :: rest =>
      if test c then next { progress with place := ⟨c :: progress.place.before, rest⟩ } else none
  | textStart, next, progress => if progress.place.before.isEmpty then next progress else none
  | textEnd, next, progress => if progress.place.rest.isEmpty then next progress else none
  | wordEdge, next, progress => if atWordEdge progress.place then next progress else none
  | seq first second, next, progress => first.run (second.run next) progress
  | either first second, next, progress =>
    match first.run next progress with
    | some found => some found
    | none => second.run next progress
  | many body, next, progress =>
    repeated body.run next progress.place.rest.length progress
  | capture label body, next, progress =>
    body.run
      (fun after =>
        next { after with captures := ⟨label, progress.place, after.place⟩ :: after.captures })
      progress

/-- Matches at a place. -/
def matchAt (pattern : Pattern) (place : Place) : Option Progress :=
  pattern.run some ⟨place, []⟩

/-- The first match in a text from a place on. -/
def searchFrom (pattern : Pattern) (before : List Char) : List Char → Option Progress
  | [] => pattern.matchAt ⟨before, []⟩
  | c :: rest =>
    match pattern.matchAt ⟨before, c :: rest⟩ with
    | some found => some found
    | none => searchFrom pattern (c :: before) rest

/-- The first match in a text. -/
def search (pattern : Pattern) (text : List Char) : Option Progress :=
  pattern.searchFrom [] text

/-- Whether a text has a match. -/
def isIn (pattern : Pattern) (text : List Char) : Bool :=
  (pattern.search text).isSome

/-! ### Building patterns -/

/-- A given character. -/
def char (c : Char) : Pattern := one (· == c)

/-- One of the characters of a text. -/
def oneOf (chars : String) : Pattern := one chars.toList.contains

/-- Any character but those of a text. -/
def noneOf (chars : String) : Pattern := one (!chars.toList.contains ·)

/-- A given text. -/
def exactly (text : String) : Pattern :=
  text.toList.foldr (fun c rest => char c ++ rest) nothing

/-- One of several patterns, the first that fits. -/
def anyOf : List Pattern → Pattern
  | [] => one (fun _ => false)
  | [pattern] => pattern
  | pattern :: rest => either pattern (anyOf rest)

/-- One of several texts. -/
def words (texts : List String) : Pattern := anyOf (texts.map exactly)

/-- A pattern or nothing, the pattern first. -/
def maybe (pattern : Pattern) : Pattern := either pattern nothing

/-- A pattern at least once. -/
def some1 (pattern : Pattern) : Pattern := pattern ++ many pattern

/-- An ASCII blank. -/
def blank : Pattern := oneOf " \t\n\r\x0b\x0c"

/-- Any number of blanks. -/
def gap : Pattern := many blank

/-- At least one blank. -/
def space : Pattern := some1 blank

/-- A word character. -/
def wordChar : Pattern := one isWordChar

end Pattern

end ContextSets
