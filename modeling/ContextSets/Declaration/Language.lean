import ContextSets.Files.Path
import ContextSets.Text.Lowercase

/-!
# Language families

A language family is told by the extension of a file. Families differ in how functions and classes are
declared and in how comment lines begin.
-/

namespace ContextSets

/-- Languages with a common form of declarations. `javaScript` includes TypeScript; `cLike` covers
Java, C#, C and C++. -/
inductive Language where
  | javaScript
  | rust
  | go
  | cLike
  | kotlin
  | python
  | ruby
  | php
  | swift
deriving DecidableEq, Repr

namespace Language

/-- All families. -/
def all : List Language :=
  [javaScript, rust, go, cLike, kotlin, python, ruby, php, swift]

/-- The extensions of a family. -/
def extensions : Language → List String
  | javaScript => ["js", "jsx", "mjs", "cjs", "ts", "tsx", "mts", "cts", "vue", "svelte"]
  | rust => ["rs"]
  | go => ["go"]
  | cLike => ["java", "cs", "c", "h", "cc", "cpp", "cxx", "hpp", "hh"]
  | kotlin => ["kt", "kts"]
  | python => ["py", "pyi"]
  | ruby => ["rb", "rake"]
  | php => ["php"]
  | swift => ["swift"]

/-- The family of a file, by its extension in any mix of ASCII cases. -/
def ofPath? (path : String) : Option Language := do
  let extension ← Path.extension? path
  all.find? (·.extensions.contains (Text.lowerAscii extension))

/-- What a comment line begins with, or goes on with. -/
def commentMarks : Language → List String
  | python => ["#"]
  | ruby => ["#"]
  | php => ["//", "#", "/*", "*"]
  | _ => ["//", "/*", "*"]

end Language

end ContextSets
