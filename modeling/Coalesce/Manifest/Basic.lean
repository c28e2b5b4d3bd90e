import Coalesce.Diagnostic.Basic
import Coalesce.Manifest.Field
import Coalesce.Toml.Document

/-!
# Manifests

A manifest is a document with three groups of settings, each of which may be left out. Reading one
never fails: what is wrong with it becomes diagnostics. A document with a fault, or with a value
that does not fit its field, says nothing at all; every setting then has its default and there is
one error at the place of the fault. Otherwise each key that no group knows gives a warning.
-/

namespace Coalesce

/-- The settings of a project. -/
structure Manifest where
  sources : SourceRules
  options : BuildOptions
  batch : BatchSettings
deriving Repr

namespace Manifest

open Toml (Node Key Table)

/-- The name that a manifest has unless another one is given. -/
def fileName : String := "batchc.toml"

/-- The manifest that says nothing. -/
def default : Manifest := ⟨.default, .default, .default⟩

/-! ## Diagnostics -/

/-- The document or one of its values is wrong. -/
def parseCode : String := "CFG5000"

/-- The manifest cannot be read. -/
def unreadableCode : String := "CFG5001"

/-- A directory of sources does not exist. -/
def missingDirectoryCode : String := "CFG5002"

/-- A key is not known. -/
def unknownKeyCode : String := "CFG5003"

/-- A source file does not exist. -/
def missingFileCode : String := "CFG5004"

/-! ## Groups of settings -/

/-- The fields of `[project]`. -/
def sourceFields : List (Field SourceRules) := [
  .of "include" (listOf path) fun v s => { s with directories := v },
  .of "extensions" (listOf text) fun v s => { s with extensions := v },
  .of "exclude" (listOf text) fun v s => { s with excluded := v },
  .of "files" (listOf path) fun v s => { s with files := v },
  .of "watch" boolean fun v s => { s with watch := v }]

/-- The fields of `[batch]`. -/
def batchFields : List (Field BatchSettings) := [
  .of "quiet_period_ms" count fun v s => { s with quietPeriod := v },
  .of "map_suffix" text fun v s => { s with mapSuffix := v },
  .of "write_to_disk" boolean fun v s => { s with writeToDisk := v }]

/-- The fields of `[compiler_options]` that are known here. -/
def optionFields : List (Field BuildOptions) := [
  .of "no_emit_on_error" boolean fun v s => { s with noEmitOnError := v },
  .of "out_dir" path fun v s => { s with outDir? := some v },
  .of "source_map" boolean fun v s => { s with sourceMap := v }]

/-- The options for the compiler. The known ones are taken first; then the others are kept with
their values. -/
def readOptions : Node → Except Complaint BuildOptions
  | .table _ entries => do
    let known ← takeEntries optionFields .default entries
    let others := entries.filter fun entry => known.unknown.contains entry.1.name
    let extra ← others.mapM fun (key, node) => do return (key.name, ← value node)
    return { known.settings with extra }
  | .datetime _ d => .ok { BuildOptions.default with extra := [(datetimeKey, .string d.text)] }
  | node => unfit (.group "CompilerOptions") node

/-! ## The whole document -/

/-- What was read of a manifest: its settings and the paths of the keys that no group knows. -/
structure Reading where
  manifest : Manifest
  unknown : List String
deriving Repr

/-- The paths of the unknown keys of a group. -/
def below (name : String) (keys : List String) : List String := keys.map (name ++ "." ++ ·)

/-- Takes one entry of the document. -/
def takeSection (r : Reading) (entry : Key × Node) : Except Complaint Reading :=
  let (key, node) := entry
  placed (node.start?.getD key.start) <|
    if key.name = "project" then do
      let p ← group "ProjectSection" sourceFields .default node
      return ⟨{ r.manifest with sources := p.settings }, r.unknown ++ below "project" p.unknown⟩
    else if key.name = "compiler_options" then do
      return { r with manifest := { r.manifest with options := ← readOptions node } }
    else if key.name = "batch" then do
      let p ← group "BatchConfig" batchFields .default node
      return ⟨{ r.manifest with batch := p.settings }, r.unknown ++ below "batch" p.unknown⟩
    else .ok { r with unknown := r.unknown ++ [key.name] }

/-- Takes a whole document, entry by entry. -/
def ofTable (t : Table) : Except Complaint Reading :=
  t.entries.foldlM takeSection ⟨default, []⟩

/-- How a manifest is named in a warning: by its file name, if its path has one. -/
def label (path : FilePath) : String :=
  match path.components.getLast? with
  | some (.named name) => name
  | _ => path.text

/-- The warning about an unknown key. -/
def unknownKey (path : FilePath) (key : String) : Diagnostic :=
  .warning unknownKeyCode ("Unknown field '" ++ key ++ "' in " ++ label path ++ ", ignoring.")

/-- The error about something wrong at a byte of the content. -/
def wrong (path : FilePath) (content : String) (offset : Nat) (message : String) : Diagnostic :=
  { Diagnostic.error parseCode message with
    location? := some ⟨path, Text.Position.ofOffset content offset⟩ }

/-- The manifest that a text holds, and what there is to say about it. The path is only named. -/
def ofContent (content : String) (path : FilePath) : Manifest × List Diagnostic :=
  match Table.ofText content with
  | .error fault => (default, [wrong path content fault.offset fault.message])
  | .ok t =>
    match ofTable t with
    | .error complaint =>
      (default, [wrong path content (complaint.start?.getD 0) complaint.misfit.message])
    | .ok r => (r.manifest, r.unknown.map (unknownKey path))

end Manifest

end Coalesce
