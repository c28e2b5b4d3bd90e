import Coalesce.FilePath.Raw
import Coalesce.Text.Position

/-!
# Diagnostics

A diagnostic is one message about a project: how serious it is, a code, a text, and notes that go
with the text, each one level deeper than the one before. It may point at a place in a file. It is
printed on one line, with the notes on lines of their own behind it:

    src/a.ts(3,7): error TS2322: Type 'A' is not assignable to type 'B'.
      Types of property 'x' are incompatible.

Places are counted from zero inside and from one in print, and a file is named by the way to it
from a root directory if it lies below that directory, and else as it is. What is no text in a name
is replaced in print.
-/

namespace Coalesce

/-- How serious a diagnostic is. -/
inductive Severity where
  | warning
  | error
  | suggestion
  | message
deriving DecidableEq, Repr

/-- The name of a severity in print. -/
def Severity.text : Severity → String
  | warning => "warning"
  | error => "error"
  | suggestion => "suggestion"
  | message => "message"

/-- Whether a severity is that of an error. -/
def Severity.isError (s : Severity) : Bool := s == .error

/-- A place in a file. -/
structure Location where
  file : FilePath
  position : Text.Position
deriving DecidableEq, Repr

/-- A message about a project. -/
structure Diagnostic where
  location? : Option Location
  severity : Severity
  code : String
  message : String
  notes : List String
deriving DecidableEq, Repr

namespace Diagnostic

/-- An error without a place. -/
def error (code message : String) : Diagnostic := ⟨none, .error, code, message, []⟩

/-- A warning without a place. -/
def warning (code message : String) : Diagnostic := ⟨none, .warning, code, message, []⟩

/-- The lines of notes, the first one at the given depth. -/
def noteLines : (depth : Nat) → List String → List Char
  | _, [] => []
  | depth, note :: notes =>
    '\n' :: List.replicate (2 * depth) ' ' ++ note.toList ++ noteLines (depth + 1) notes

/-- The message with its notes on indented lines. -/
def fullMessage (d : Diagnostic) : String := d.message ++ String.ofList (noteLines 1 d.notes)

/-- The name of a file as it is printed. -/
def printedName (file root : FilePath) : String := (file.raw.nameFrom root.raw).text

/-- The place of a diagnostic as it is printed in front of it. -/
def printedPlace (root : FilePath) : Option Location → String
  | none => ""
  | some ⟨file, position⟩ =>
    printedName file root ++ "(" ++ toString (position.line + 1) ++ "," ++
      toString (position.column + 1) ++ "): "

/-- A diagnostic in print, seen from a root directory. -/
def render (d : Diagnostic) (root : FilePath) : String :=
  printedPlace root d.location? ++ d.severity.text ++ " " ++ d.code ++ ": " ++ d.fullMessage

end Diagnostic

end Coalesce
