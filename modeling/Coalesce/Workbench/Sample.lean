import Coalesce.Request
import Coalesce.Workbench.Memory

/-!
# A sample project

A project in memory with three sources, one of which only declares, all of them below the directory
`/p`:

    /p/src/a.ts          compiled to /p/dist/a.js
    /p/src/b.ts          compiled to /p/dist/b.js
    /p/src/types.d.ts

Outputs are the plain ones, for sources that have a name. A sample that fails does so because its
manifest cannot be read.
-/

namespace Coalesce.Sample

/-- The directory of the sample. -/
def root : FilePath := ⟨"/p"⟩

/-- A path read from the directory of the sample. -/
def locate (rel : String) : FilePath := root.join ⟨rel⟩

/-- The target that belongs to the name of a source. -/
def target (name : String) : Target :=
  ⟨locate ("dist/" ++ name ++ ".js"), locate ("src/" ++ name ++ ".ts")⟩

/-- The sources of the sample. -/
def sources : List (FilePath × String) := [
  (locate "src/a.ts", "export const a: number = 1;"),
  (locate "src/b.ts", "export const b: string = 'b';"),
  (locate "src/types.d.ts", "declare const t: number;")]

/-- The project of the sample. -/
def memory : Memory where
  disk := .ofList sources
  configuration :=
    ⟨sources.map Prod.fst, { BuildOptions.default with
      outDir? := some (locate "dist")
      sourceMap := true }, []⟩
  hasChanged := true
  failure? := none
  batch? := none

/-- A workbench with the sample on it. -/
def workbench : Memory.World := .create memory []

/-- The backend of the sample. -/
def backend : Backend Memory.World SourceText Program :=
  Workbench.backend Memory.text? Workbench.namedOutput

/-- Why a sample fails. -/
def failure : ProjectFailure := .unreadable (locate "batchc.toml") "disk gone"

/-- Adds a source to the disk and to the list of files, which is a change. -/
def withSource (path : FilePath) (text : String) (m : Memory) : Memory :=
  ((m.write path text).withFiles (m.configuration.files ++ [path])).markChanged

end Coalesce.Sample
