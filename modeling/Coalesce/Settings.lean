import Coalesce.FilePath.Basic
import Coalesce.Toml.Node

/-!
# Settings

A project has three groups of settings: which files belong to it, how they are compiled, and how
requests are put together. Every setting has a default. Options for the compiler that are not known
here are kept for it as they were given.
-/

namespace Coalesce

/-- Which files belong to a project. Paths are read from the project's root. -/
structure SourceRules where
  /-- Directories whose files belong to the project, at any depth. -/
  directories : List FilePath
  /-- Extensions of source files. -/
  extensions : List String
  /-- Names of directories that are left out. -/
  excluded : List String
  /-- Files that belong to the project whatever their extension. -/
  files : List FilePath
  /-- Whether the file system is watched between passes. -/
  watch : Bool
deriving DecidableEq, Repr

namespace SourceRules

/-- The rules of a project that says nothing about its files. -/
def default : SourceRules :=
  ⟨[⟨"src"⟩], ["ts", "tsx"], ["node_modules"], [], true⟩

/-- Whether an extension is one of the project's; a rule may be written with dots in front. -/
def hasExtension (rules : SourceRules) (extension : String) : Bool :=
  rules.extensions.any fun rule => rule.toList.dropWhile (· == '.') == extension.toList

/-- Whether directories of this name are left out. -/
def excludes (rules : SourceRules) (name : String) : Bool := rules.excluded.contains name

end SourceRules

/-- Options for the compiler. -/
structure BuildOptions where
  /-- Whether any reported diagnostic ends the pass. -/
  noEmitOnError : Bool
  /-- The directory for what the compiler writes. -/
  outDir? : Option FilePath
  /-- Whether source maps are written. -/
  sourceMap : Bool
  /-- Options that only the compiler understands. -/
  extra : List (String × Toml.Value)
deriving Repr

/-- The options of a project that says nothing about them. -/
def BuildOptions.default : BuildOptions := ⟨false, none, false, []⟩

/-- How requests are put together and what becomes of the output. -/
structure BatchSettings where
  /-- Milliseconds without a request before a pass starts. -/
  quietPeriod : Nat
  /-- What is written behind an output path to get the path of its source map. -/
  mapSuffix : String
  /-- Whether captured output is also written where the compiler wanted it. -/
  writeToDisk : Bool
deriving DecidableEq, Repr

namespace BatchSettings

/-- The settings of a project that says nothing about them. -/
def default : BatchSettings := ⟨250, ".map", false⟩

/-- The path of the source map that goes with an output path. -/
def sourceMapOf (settings : BatchSettings) (output : FilePath) : FilePath :=
  output.withSuffix settings.mapSuffix

end BatchSettings

end Coalesce
