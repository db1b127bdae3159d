/-!
# Faults of the file system

What can go wrong when a file or a directory is touched, in the words of the operating system.
-/

namespace ContextSets

/-- A failed access to a file or directory. -/
inductive FileFault where
  | notFound
  | permissionDenied
  | exists
  | notDirectory
  | isDirectory
  | nameTooLong
  | notEmpty
  | hasNul
  | notUtf8
  | other (text : String)
deriving DecidableEq, Repr

/-- The words for a fault. -/
def FileFault.message : FileFault → String
  | .notFound => "No such file or directory (os error 2)"
  | .permissionDenied => "Permission denied (os error 13)"
  | .exists => "File exists (os error 17)"
  | .notDirectory => "Not a directory (os error 20)"
  | .isDirectory => "Is a directory (os error 21)"
  | .nameTooLong => "File name too long (os error 36)"
  | .notEmpty => "Directory not empty (os error 39)"
  | .hasNul => "file name contained an unexpected NUL byte"
  | .notUtf8 => "stream did not contain valid UTF-8"
  | .other text => text

/-- The fault with a number of the operating system, of which the text is only kept if the number is
not known. -/
def FileFault.ofNumber (number : Nat) (text : String) : FileFault :=
  match number with
  | 2 => .notFound
  | 13 => .permissionDenied
  | 17 => .exists
  | 20 => .notDirectory
  | 21 => .isDirectory
  | 36 => .nameTooLong
  | 39 => .notEmpty
  | _ => .other (text ++ " (os error " ++ toString number ++ ")")

end ContextSets
