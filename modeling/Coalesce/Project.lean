import Coalesce.Diagnostic.Basic
import Coalesce.Journal
import Coalesce.Settings

/-!
# Projects

A session asks three things of a project: whether its set of files has changed since it was last
asked, what it consists of now, and how it wants its requests to be put together. A project looks at
a world `W`, and asking whether it has changed may change what it remembers there.
-/

namespace Coalesce

/-- Whether the set of files of a project has changed. -/
inductive Change where
  | unchanged
  | changed
deriving DecidableEq, Repr

/-- Whether there was a change. -/
def Change.isChange (c : Change) : Bool := c == .changed

/-- What a project consists of. -/
structure Configuration where
  files : List FilePath
  options : BuildOptions
  /-- What is wrong with the project's own settings. -/
  errors : List Diagnostic
deriving Repr

/-- Where files and settings come from. -/
structure Project (W : Type) where
  poll : W → Change × List Trace × W
  configuration : W → Except ProjectFailure Configuration
  batch? : W → Option BatchSettings

end Coalesce
