import ContextSets.Command.Run
import ContextSets.CommandLine.Forms
import ContextSets.Project.ConfigFile

/-!
# Running command lines

A command line is read and carried out. What comes of it is a code and two texts: code 0 and an
answer, code 1 and a failure, or code 2 and a word on the use of the tool.
-/

namespace ContextSets.CommandLine

/-- What comes of a command line: its code, and what is written to the two outputs. -/
structure Outcome where
  code : Nat
  output : String
  errors : String
deriving DecidableEq, Repr

/-- How the tool is used. -/
def usage : String :=
  "Usage: ctx [--config <file>] [--root <directory>] <command> [<argument>...]\n\nCommands: " ++
    ", ".intercalate (commandForms.map (·.name)) ++ "\n"

/-- The name of the tool and its version. -/
def version : String := "ctx 0.1.0\n"

/-- What comes of a command line that is not carried out. -/
def Fault.outcome : Fault → Outcome
  | help => ⟨0, usage, ""⟩
  | version => ⟨0, CommandLine.version, ""⟩
  | wrong => ⟨2, "", usage⟩

variable {m : Type → Type} [Monad m]

/-- Carries out what a command line asks for. -/
def Invocation.run (world : World m) (monitor : Batch.Monitor m) (invocation : Invocation) :
    Task m String := do
  let config ← Config.load world invocation.config
  let project := Project.locate invocation.root world.currentDirectory config.project
  invocation.command.run world monitor config project

/-- Reads a command line and carries it out. -/
def run (world : World m) (monitor : Batch.Monitor m) (args : List String) : m Outcome := do
  match parse args with
  | .error fault => return fault.outcome
  | .ok invocation =>
    match ← (invocation.run world monitor).run with
    | .ok text => return ⟨0, if text.isEmpty then "" else text ++ "\n", ""⟩
    | .error failure => return ⟨1, "", failure.report ++ "\n"⟩

end ContextSets.CommandLine
