import Coalesce.Backend
import Coalesce.FilePath.Name
import Coalesce.Project
import Coalesce.Text.Split

/-!
# The workbench

A backend to try sessions out with. It understands nothing of what it compiles: the output of a
source unit is its text under a heading, in a file named for the stem of its path. But it counts.
Every host, every program and every reading of a source has a number, so that one can see afterwards
what was read anew and what was served again.

The workbench keeps its sources in a store of some kind `D`, of which it only needs to know how a
text is read from a path.
-/

namespace Coalesce

/-- A source that was read: under which path, what it said, and as which reading. -/
structure SourceText where
  path : FilePath
  text : String
  serial : Nat
deriving DecidableEq, Repr

/-- A source unit that has no output: its path ends in `.d.ts`. -/
def SourceText.isDeclaration (unit : SourceText) : Bool :=
  ".d.ts".toList.isSuffixOf unit.path.text.toList

/-- The source units of a build, in the order of the list of files, and where the output goes. -/
structure Program where
  units : List SourceText
  outDir : FilePath
  sourceMap : Bool
deriving DecidableEq, Repr

/-- The first source unit of a path. -/
def Program.find? (program : Program) (path : FilePath) : Option SourceText :=
  program.units.find? fun unit => unit.path.same path

theorem Program.of_find? {program : Program} {path : FilePath} {unit : SourceText}
    (h : program.find? path = some unit) :
    unit ∈ program.units ∧ unit.path.same path = true := by
  rw [find?] at h
  have hsame := List.find?_some h
  exact ⟨List.mem_of_find?_eq_some h, hsame⟩

/-- A store of sources with everything that is counted and collected beside it. -/
structure Workbench (D : Type) where
  store : D
  /-- The number of sources read so far. -/
  parses : Nat
  /-- The number of programs built so far. -/
  programs : Nat
  /-- The number of hosts opened so far. -/
  hosts : Nat
  /-- What came through to the hosts to be written, in order. -/
  written : List (FilePath × String)
  /-- What will be wrong with every program. -/
  diagnostics : List Diagnostic
  /-- Whether the next build breaks down. -/
  isFaulty : Bool

namespace Workbench

variable {D : Type}

/-- A workbench on which nothing has happened yet. -/
def create (store : D) (diagnostics : List Diagnostic) : Workbench D :=
  ⟨store, 0, 0, 0, [], diagnostics, false⟩

/-- The host of a workbench: it reads from the store, counts, and collects what is written. -/
def host (text? : D → FilePath → Option String) : Host SourceText (Workbench D) where
  read path w :=
    match text? w.store path with
    | none => (none, w)
    | some text => (some ⟨path, text, w.parses + 1⟩, { w with parses := w.parses + 1 })
  write path text w := { w with written := w.written ++ [(path, text)] }

/-- Asks for the source units of a list of files and keeps those that there are. -/
def gather : List FilePath → Dialogue SourceText (List SourceText)
  | [] => .done []
  | file :: files => do
    let unit? ← Dialogue.ask file
    let units ← gather files
    return unit?.toList ++ units

/-- Where output goes if the options do not say. -/
def defaultOutDir : FilePath := ⟨"/p/dist"⟩

/-- Builds the program of a list of files. -/
def program (files : List FilePath) (options : BuildOptions) :
    Dialogue SourceText Program := do
  let units ← gather files
  return ⟨units, options.outDir?.getD defaultOutDir, options.sourceMap⟩

/-- The heading above every output, with the text of the source below it. -/
def plainOutput (unit : SourceText) : String := "// emitted\n" ++ unit.text

/-- The start of a line that names another source. -/
def referenceMark : List Char := "//@read ".toList

/-- The paths of the other sources that a source unit names, each on a line of its own. -/
def references (unit : SourceText) : List FilePath :=
  (Text.split '\n' unit.text.toList).filterMap fun line =>
    if referenceMark.isPrefixOf line then
      some ⟨String.ofList (line.drop referenceMark.length)⟩
    else none

/-- What an output says about another source that was asked for. -/
def referenceNote : Option SourceText → String
  | some unit => "\n// read #" ++ toString unit.serial ++ " " ++ unit.text
  | none => "\n// read none"

/-- How an output is made, unless the backend breaks down over it. -/
abbrev OutputRule : Type := SourceText → Option (Dialogue SourceText String)

/-- An output followed by notes on other sources. -/
def withNotes (output : String) : List FilePath → Dialogue SourceText String
  | [] => .done output
  | path :: paths => do
    let unit? ← Dialogue.ask path
    withNotes (output ++ referenceNote unit?) paths

/-- The output of a source unit, with a note on every source that it names. -/
def annotatedOutput : OutputRule := fun unit =>
  some (withNotes (plainOutput unit) (references unit))

/-- The output of a source unit alone. The backend breaks down over a path without a stem, for which
there is no name to write to. -/
def namedOutput : OutputRule := fun unit => unit.path.stem?.map fun _ => .done (plainOutput unit)

/-- Writes the output of one source unit, and its source map if there are to be any. -/
def emitUnit (output : Dialogue SourceText String) (program : Program) (unit : SourceText) :
    Dialogue SourceText Unit := do
  let name := unit.path.stem?.getD "" ++ ".js"
  let text ← output
  Dialogue.tell (program.outDir.join ⟨name⟩) text
  if program.sourceMap then
    Dialogue.tell (program.outDir.join ⟨name ++ ".map"⟩) ("\x7b\"file\":\"" ++ name ++ "\"\x7d")

/-- Writes the outputs of a list of source units, up to one that the backend breaks down over. -/
def emitAll (rule : OutputRule) (program : Program) : List SourceText → Dialogue SourceText Bool
  | [] => .done true
  | unit :: units =>
    match rule unit with
    | none => .done false
    | some output => do
      emitUnit output program unit
      emitAll rule program units

/-- Counts a program and begins to build it, unless the workbench breaks down. -/
def build (files : List FilePath) (options : BuildOptions) (w : Workbench D) :
    Option (Dialogue SourceText Program) × Workbench D :=
  (if w.isFaulty then none else some (program files options),
    { w with programs := w.programs + 1, isFaulty := false })

/-- The backend of a workbench, given how a text is read from its store and how an output is
made. -/
def backend (text? : D → FilePath → Option String) (rule : OutputRule) :
    Backend (Workbench D) SourceText Program where
  name := "fake"
  version := "1.0.0"
  openHost _ w := (⟨w.hosts + 1⟩, { w with hosts := w.hosts + 1 })
  host _ := host text?
  build := build
  diagnostics _ w := w.diagnostics
  emit program :=
    emitAll rule program (program.units.filter fun unit => !unit.isDeclaration)
  find? := Program.find?
  isDeclaration := SourceText.isDeclaration

/-- A project that looks at a store, on a workbench with that store. -/
def project (p : Project D) : Project (Workbench D) where
  poll w :=
    let (change, traces, store) := p.poll w.store
    (change, traces, { w with store })
  configuration w := p.configuration w.store
  batch? w := p.batch? w.store

end Workbench

end Coalesce
