import Coalesce.FilePath.Map
import Coalesce.Project
import Coalesce.Workbench.Basic

/-!
# Projects in memory

A project that consists of what it is told: its sources are texts kept by path, and everything that
a session asks of a project is a field that can be set. It reports a change once after it was told
that there is one, and fails as long as it is told to.
-/

namespace Coalesce

/-- A project and its sources. -/
structure Memory where
  disk : PathMap String
  configuration : Configuration
  hasChanged : Bool
  /-- Why the project cannot say what it consists of, as long as it cannot. -/
  failure? : Option ProjectFailure
  batch? : Option BatchSettings

namespace Memory

/-- The text of a source. -/
def text? (m : Memory) (path : FilePath) : Option String := m.disk.get? path

/-- What the project of a memory answers. -/
def answers : Project Memory where
  poll m :=
    (if m.hasChanged then .changed else .unchanged, [], { m with hasChanged := false })
  configuration m :=
    match m.failure? with
    | some error => .error error
    | none => .ok m.configuration
  batch? m := m.batch?

/-- A workbench with a project in memory. -/
abbrev World : Type := Workbench Memory

/-- The project of a workbench. -/
def project : Project World := Workbench.project answers

/-- The backend of a workbench with a project in memory. Outputs have notes on the sources that are
named in them. -/
def backend : Backend World SourceText Program := Workbench.backend text? Workbench.annotatedOutput

/-- Changes the text of a source or adds it. -/
def write (path : FilePath) (text : String) (m : Memory) : Memory :=
  { m with disk := m.disk.insert path text }

/-- Takes a source away. -/
def remove (path : FilePath) (m : Memory) : Memory := { m with disk := m.disk.erase path }

/-- Tells the project that it has changed. -/
def markChanged (m : Memory) : Memory := { m with hasChanged := true }

/-- The project with another list of files. -/
def withFiles (files : List FilePath) (m : Memory) : Memory :=
  { m with configuration := { m.configuration with files } }

/-- The project with other options. -/
def withOptions (options : BuildOptions) (m : Memory) : Memory :=
  { m with configuration := { m.configuration with options } }

/-- The project with other errors in its own settings. -/
def withErrors (errors : List Diagnostic) (m : Memory) : Memory :=
  { m with configuration := { m.configuration with errors } }

/-- The project with other settings for requests. -/
def withBatch (batch? : Option BatchSettings) (m : Memory) : Memory := { m with batch? }

/-- Lets the project fail, or not. -/
def withFailure (failure? : Option ProjectFailure) (m : Memory) : Memory := { m with failure? }

end Memory

end Coalesce
