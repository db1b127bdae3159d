import ContextSets.Declaration.Language
import ContextSets.Pattern

/-!
# Forms of declarations

For each language family the patterns of lines that declare a function, and of lines that declare a
class or a similar type. The declared name is captured as `name`. In the C-like form the word in front
of it, which may be a type, is captured as `lead`.
-/

namespace ContextSets.Form

open Pattern

/-- The label under which a declared name is captured. -/
def nameLabel : String := "name"

/-- The label under which the word in front of a declared name is captured. -/
def leadLabel : String := "lead"

/-- A word that may stand here, with blanks behind it. -/
def optionalWord (word : String) : Pattern := maybe (exactly word ++ space)

/-- Any number of modifiers, each with blanks behind it. -/
def modifiers (texts : List String) : Pattern := many (words texts ++ space)

/-- The first character of a name. -/
def nameStart : Pattern := one fun c => c.isAlpha || c == '_'

/-- A declared name. -/
def name : Pattern := capture nameLabel (nameStart ++ many wordChar)

/-- The first character of a name that may contain dollar signs. -/
def dollarStart : Pattern := one fun c => c.isAlpha || c == '_' || c == '$'

/-- A further character of a name that may contain dollar signs. -/
def dollarChar : Pattern := one fun c => isWordChar c || c == '$'

/-- A name that may contain dollar signs. -/
def dollarWord : Pattern := dollarStart ++ many dollarChar

/-- A declared name that may contain dollar signs. -/
def dollarName : Pattern := capture nameLabel dollarWord

/-- Any text in round brackets without a closing bracket in it. -/
def bracketed : Pattern := char '(' ++ many (noneOf ")") ++ char ')'

/-- Any text in angle brackets without a closing bracket in it. -/
def angled : Pattern := char '<' ++ many (noneOf ">") ++ char '>'

/-- A type behind a colon, up to an equals sign. -/
def annotation : Pattern := maybe (char ':' ++ some1 (noneOf "="))

namespace JavaScript

/-- A function with its name behind the word. -/
def function : Pattern :=
  textStart ++ gap ++ optionalWord "export" ++ optionalWord "default" ++ optionalWord "async" ++
    exactly "function" ++ gap ++ maybe (char '*') ++ gap ++ dollarName

/-- A constant or variable that is given a function. -/
def assigned : Pattern :=
  textStart ++ gap ++ optionalWord "export" ++ words ["const", "let", "var"] ++ space ++
    dollarName ++ gap ++ annotation ++ char '=' ++ gap ++ optionalWord "async" ++
    anyOf [exactly "function" ++ wordEdge,
      bracketed ++ gap ++ annotation ++ exactly "=>",
      dollarWord ++ gap ++ exactly "=>"]

/-- A method whose body opens at the end of the line. -/
def method : Pattern :=
  textStart ++ gap ++
    modifiers ["public", "private", "protected", "static", "async", "readonly", "override", "get",
      "set"] ++
    dollarName ++ gap ++ maybe angled ++ bracketed ++ gap ++
    maybe (char ':' ++ gap ++ some1 (one (· != '{'))) ++ char '{' ++ gap ++ textEnd

/-- A class. -/
def type : Pattern :=
  textStart ++ gap ++ optionalWord "export" ++ optionalWord "default" ++ optionalWord "abstract" ++
    exactly "class" ++ space ++ dollarName

/-- An interface. -/
def interface : Pattern :=
  textStart ++ gap ++ optionalWord "export" ++ exactly "interface" ++ space ++ dollarName

end JavaScript

namespace Rust

/-- A visibility that may stand in front. -/
def visibility : Pattern := maybe (exactly "pub" ++ maybe bracketed ++ space)

/-- A function. -/
def function : Pattern :=
  textStart ++ gap ++ visibility ++ optionalWord "default" ++ optionalWord "const" ++
    optionalWord "async" ++ optionalWord "unsafe" ++
    maybe (exactly "extern" ++ space ++ char '"' ++ many (noneOf "\"") ++ char '"' ++ space) ++
    exactly "fn" ++ space ++ name

/-- A structure, enumeration, trait or union. -/
def type : Pattern :=
  textStart ++ gap ++ visibility ++ optionalWord "unsafe" ++
    words ["struct", "enum", "trait", "union"] ++ space ++ name

end Rust

namespace Go

/-- A function or method. -/
def function : Pattern :=
  textStart ++ exactly "func" ++ space ++ maybe (bracketed ++ gap) ++ name

/-- A structure or interface type. -/
def type : Pattern :=
  textStart ++ gap ++ exactly "type" ++ space ++ name ++ space ++ words ["struct", "interface"] ++
    wordEdge

end Go

namespace CLike

/-- A further character of the word in front of a name. -/
def leadChar : Pattern := one fun c => isWordChar c || "<>[],.?*&:".toList.contains c

/-- A function or method: a word, a name and an opening bracket, without a semicolon behind it. -/
def function : Pattern :=
  textStart ++ gap ++
    modifiers ["public", "private", "protected", "internal", "static", "final", "abstract",
      "synchronized", "async", "override", "virtual", "sealed", "native", "extern", "inline",
      "constexpr", "unsafe", "partial"] ++
    capture leadLabel (nameStart ++ many leadChar) ++ space ++ maybe (oneOf "*&") ++ name ++ gap ++
    char '(' ++ many (noneOf ";") ++ textEnd

/-- A class, interface, structure, enumeration or record. -/
def type : Pattern :=
  textStart ++ gap ++
    modifiers ["public", "private", "protected", "internal", "static", "final", "abstract", "sealed",
      "partial", "typedef"] ++
    words ["class", "interface", "struct", "enum", "record"] ++ space ++ name

end CLike

namespace Kotlin

/-- A function, also one that extends a type. -/
def function : Pattern :=
  textStart ++ gap ++
    modifiers ["public", "private", "protected", "internal", "override", "open", "suspend", "inline",
      "operator", "infix", "tailrec", "abstract"] ++
    exactly "fun" ++ space ++ maybe (angled ++ gap) ++
    maybe (some1 (one fun c => isWordChar c || c == '.') ++ char '.') ++ name

/-- A class, interface or object. -/
def type : Pattern :=
  textStart ++ gap ++
    modifiers ["public", "private", "protected", "internal", "abstract", "open", "sealed", "data",
      "enum", "inner", "value"] ++
    words ["class", "interface", "object"] ++ space ++ name

end Kotlin

namespace Python

/-- A function. -/
def function : Pattern :=
  textStart ++ gap ++ optionalWord "async" ++ exactly "def" ++ space ++ name

/-- A class. -/
def type : Pattern := textStart ++ gap ++ exactly "class" ++ space ++ name

end Python

namespace Ruby

/-- A method; its name may end in a mark. -/
def method : Pattern :=
  textStart ++ gap ++ exactly "def" ++ space ++ maybe (exactly "self.") ++
    capture nameLabel (nameStart ++ many wordChar ++ maybe (oneOf "?!="))

/-- A class or module, with a capital. -/
def type : Pattern :=
  textStart ++ gap ++ words ["class", "module"] ++ space ++
    capture nameLabel (one Char.isUpper ++ many wordChar)

end Ruby

namespace Php

/-- A function or method. -/
def function : Pattern :=
  textStart ++ gap ++
    modifiers ["public", "private", "protected", "static", "final", "abstract"] ++
    exactly "function" ++ space ++ maybe (char '&') ++ name

/-- A class, interface, trait or enumeration. -/
def type : Pattern :=
  textStart ++ gap ++ modifiers ["abstract", "final", "readonly"] ++
    words ["class", "interface", "trait", "enum"] ++ space ++ name

end Php

namespace Swift

/-- A function, with modifiers and attributes in front. -/
def function : Pattern :=
  textStart ++ gap ++
    many (anyOf [words ["public", "private", "fileprivate", "internal", "open", "static", "class",
      "override", "final", "mutating"], char '@' ++ some1 wordChar] ++ space) ++
    exactly "func" ++ space ++ name

/-- A class, structure, enumeration, protocol or actor. -/
def type : Pattern :=
  textStart ++ gap ++
    modifiers ["public", "private", "fileprivate", "internal", "open", "final"] ++
    words ["class", "struct", "enum", "protocol", "actor"] ++ space ++ name

end Swift

/-- The forms of a declared function. -/
def functions : Language → List Pattern
  | .javaScript => [JavaScript.function, JavaScript.assigned, JavaScript.method]
  | .rust => [Rust.function]
  | .go => [Go.function]
  | .cLike => [CLike.function]
  | .kotlin => [Kotlin.function]
  | .python => [Python.function]
  | .ruby => [Ruby.method]
  | .php => [Php.function]
  | .swift => [Swift.function]

/-- The forms of a declared class or similar type. -/
def classes : Language → List Pattern
  | .javaScript => [JavaScript.type, JavaScript.interface]
  | .rust => [Rust.type]
  | .go => [Go.type]
  | .cLike => [CLike.type]
  | .kotlin => [Kotlin.type]
  | .python => [Python.type]
  | .ruby => [Ruby.type]
  | .php => [Php.type]
  | .swift => [Swift.type]

end ContextSets.Form
