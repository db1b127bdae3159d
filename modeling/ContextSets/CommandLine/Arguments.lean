import ContextSets.Number.Count
import ContextSets.Text.Occurrence

/-!
# Command line arguments

Arguments are options, which begin with dashes and may take a value, and plain words. A value stands
in the next argument or behind the option itself; in the next argument it may not look like an option.
Behind two dashes all arguments are plain. The first argument that is wrong, or that asks for help or
for the version, decides.
-/

namespace ContextSets.CommandLine

/-- Why a command line is not carried out. -/
inductive Fault where
  | help
  | version
  | wrong
deriving DecidableEq, Repr

/-- What the value of an option stands for. -/
inductive ValueKind where
  | text
  | path
  | count
  | choice (texts : List String)
deriving DecidableEq, Repr

/-- Whether a text is a value. A path may not be empty. -/
def ValueKind.admits (kind : ValueKind) (text : String) : Bool :=
  match kind with
  | .text => true
  | .path => !text.isEmpty
  | .count => (count? text).isSome
  | .choice texts => texts.contains text

/-- What an option does. -/
inductive OptionKind where
  | value (kind : ValueKind)
  | flag
  | stop (fault : Fault)
deriving DecidableEq, Repr

/-- An option by its long name and its letter. -/
structure OptionForm where
  name : String
  letter : Option Char := none
  kind : OptionKind := .value .text
deriving DecidableEq, Repr

/-- How many plain words are taken: none, because the first one names a command and ends the reading,
at most so many, or any number. -/
inductive WordRule where
  | command
  | atMost (count : Nat)
  | any
deriving DecidableEq, Repr

/-- Whether so many words are not too many. -/
def WordRule.admits (rule : WordRule) (count : Nat) : Bool :=
  match rule with
  | .command => count == 0
  | .atMost most => count ≤ most
  | .any => true

/-- A value that has been put off. -/
structure Held where
  name : String
  kind : ValueKind
  value : String
deriving DecidableEq, Repr

/-- Arguments that have been told apart: given options with their values, plain words, the value of
the last option if it has not been looked at, and the arguments that have not been looked at. -/
structure Given where
  options : List (String × String)
  words : List String
  held : Option Held
  rest : List String
deriving DecidableEq, Repr

namespace Given

/-- No arguments. -/
def nothing : Given := ⟨[], [], none, []⟩

/-- The value of an option. -/
def value? (given : Given) (name : String) : Option String :=
  (given.options.find? (·.1 == name)).map Prod.snd

/-- Whether a flag has been given. -/
def has (given : Given) (name : String) : Bool :=
  (given.value? name).isSome

/-- Adds an option. It may not be given twice. -/
def withOption (given : Given) (name value : String) : Except Fault Given :=
  if given.has name then .error .wrong
  else .ok { given with options := (name, value) :: given.options }

/-- Adds an option with a value of a kind. -/
def withValue (given : Given) (name : String) (kind : ValueKind) (value : String) :
    Except Fault Given :=
  if kind.admits value then given.withOption name value else .error .wrong

/-- Looks at the value that has been put off. -/
def settled (given : Given) : Except Fault Given :=
  match given.held with
  | none => .ok given
  | some held => { given with held := none }.withValue held.name held.kind held.value

/-- Adds plain words. -/
def withWords (given : Given) (rule : WordRule) (words : List String) : Except Fault Given :=
  let words := given.words ++ words
  if rule.admits words.length then .ok { given with words := words } else .error .wrong

end Given

/-- An argument as it is written. -/
inductive Argument where
  | separator
  | long (name : String) (value : Option String)
  | short (letter : Char) (rest : List Char)
  | word (text : String)
deriving DecidableEq, Repr

/-- Tells what an argument is. A single dash is a plain word. -/
def Argument.ofText (text : String) : Argument :=
  match text.toList with
  | ['-', '-'] => .separator
  | '-' :: '-' :: name =>
    match name.dropWhile (· != '=') with
    | [] => .long (String.ofList name) none
    | _ :: value =>
      .long (String.ofList (name.takeWhile (· != '='))) (some (String.ofList value))
  | '-' :: letter :: rest => .short letter rest
  | _ => .word text

/-- Whether an argument can be the value of the option before it. -/
def isValue (text : String) : Bool :=
  match Argument.ofText text with
  | .word _ => true
  | _ => false

/-- The value written behind the letter of an option, with or without a sign of equality. -/
def attached? : List Char → Option String
  | [] => none
  | '=' :: value => some (String.ofList value)
  | value => some (String.ofList value)

/-- The option that an argument gives, and the value written behind it. What is written behind the
letter of an option that ends the reading is not looked at. -/
def option? (forms : List OptionForm) : Argument → Option (OptionForm × Option String)
  | .long name value => (forms.find? (·.name == name)).map (·, value)
  | .short letter behind =>
    (forms.find? (·.letter == some letter)).map fun form =>
      match form.kind with
      | .stop _ => (form, none)
      | _ => (form, attached? behind)
  | _ => none

/-- Tells arguments apart, behind those that have been given. A value in the next argument is looked
at only together with the argument behind it; if this names a command, it stays put off. -/
def tell (forms : List OptionForm) (rule : WordRule) (given : Given) :
    List String → Except Fault Given
  | [] => given.settled
  | arg :: rest =>
    match Argument.ofText arg with
    | .separator => do (← given.settled).withWords rule rest
    | .word text =>
      if rule = .command then .ok { given with rest := text :: rest }
      else do tell forms rule (← (← given.settled).withWords rule [text]) rest
    | argument => do
      let given ← given.settled
      match option? forms argument with
      | none => .error .wrong
      | some (form, attached) =>
        match form.kind, attached with
        | .stop fault, none => .error fault
        | .stop _, some _ => .error .wrong
        | .flag, none => tell forms rule (← given.withOption form.name "") rest
        | .flag, some _ => .error .wrong
        | .value kind, some value => tell forms rule (← given.withValue form.name kind value) rest
        | .value kind, none =>
          match rest with
          | [] => .error .wrong
          | value :: rest =>
            if isValue value then
              tell forms rule { given with held := some ⟨form.name, kind, value⟩ } rest
            else .error .wrong

end ContextSets.CommandLine
