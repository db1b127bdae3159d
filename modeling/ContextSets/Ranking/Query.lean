import ContextSets.Text.Letter
import ContextSets.Text.Lowercase
import ContextSets.Text.Occurrence

/-!
# Terms of a query

A query is split into the words that are searched for.
-/

namespace ContextSets.Query

/-- Words too common to be searched for. -/
def stopWords : List String :=
  ["the", "an", "and", "or", "of", "to", "in", "on", "for", "is", "with", "how", "what", "where",
    "does", "do", "it", "by", "at", "be"]

/-- Whether a character separates words. -/
def separates (c : Char) : Bool :=
  !(Text.isLetterOrNumber c || c == '_')

/-- Whether a word in lower case is searched for: it has more than one character and is not too
common. -/
def isTerm (word : String) : Bool :=
  1 < word.length && !stopWords.contains word

/-- The words of a query that are searched for, in lower case, each once, in order of first
occurrence. -/
def terms (query : String) : List String :=
  (((Text.splitBy separates query.toList).map fun part => Text.lower (String.ofList part)).filter
    isTerm).eraseDups

end ContextSets.Query
