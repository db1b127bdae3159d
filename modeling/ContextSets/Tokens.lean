import ContextSets.Closure

/-!
# Token estimates

How many tokens a text, or the files of a closure, will roughly take: a quarter of the characters. A
file counts as a whole also when only some of its functions are included.
-/

namespace ContextSets

/-- Four characters to a token, rounded up. -/
def estimateTokens (text : String) : Nat :=
  (text.length + 3) / 4

/-- The estimate for several files. -/
structure TokenEstimate where
  tokens : Nat
  filesRead : Nat
  unreadable : List String
deriving DecidableEq, Repr

namespace TokenEstimate

/-- The estimate for no files. -/
def zero : TokenEstimate := ⟨0, 0, []⟩

/-- The estimate with one more file, given its text unless it could not be read. -/
def add (estimate : TokenEstimate) (path : String) (content : Option String) : TokenEstimate :=
  match content with
  | some text =>
    { estimate with
      tokens := estimate.tokens + estimateTokens text
      filesRead := estimate.filesRead + 1 }
  | none => { estimate with unreadable := estimate.unreadable ++ [path] }

/-- The estimate for files that are read one after another. -/
def ofPaths {m : Type → Type} [Monad m] (read : String → m (Option String)) (paths : List String) :
    m TokenEstimate :=
  paths.foldlM (fun estimate path => do return estimate.add path (← read path)) zero

end TokenEstimate

/-- The estimate for the closure of a set. -/
def Repository.tokens (repo : Repository) (name : String) (read : String → Option String) :
    Except SetError TokenEstimate := do
  let closure ← repo.closure name
  return Id.run (TokenEstimate.ofPaths (m := Id) (fun path => pure (read path)) closure.paths)

end ContextSets
